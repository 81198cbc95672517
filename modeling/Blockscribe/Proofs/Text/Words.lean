/-
Filling keeps the words of a text.

* `Text.words`: the maximal runs of visible characters. A text falls apart at every blank
  (`words_append_cons`), and everything about words follows from this.
* `Turns`, `turns_chunks`: the runs that are filled in are ASCII blanks and other characters by turns,
  so they meet at blanks (`words_flatten`).
* `Filling.Keeps`: the invariant of filling. The words of the lines that are done and of the present
  line are those of the runs that have been taken, and the present line is made of the latest of them;
  `Keeps.step` says that every step keeps this.
* `words_fillParagraph`, `words_wrapText`: so a paragraph keeps its words, and so does a text.
-/
import Mathlib.Data.List.Chain
import Mathlib.Tactic.Lemma
import Blockscribe.Text.Wrap

namespace Blockscribe.Text

variable {a b cs run word : List Char} {runs seen : List (List Char)} {c : Char} {v : Bool}
  {fits : ℕ → Bool}

/-! ### Words -/

/-- The words of a text: its maximal runs of visible characters. -/
def words (cs : List Char) : List (List Char) := (cs.splitOnP isBlank).filter (!·.isEmpty)

@[simp] lemma words_nil : words [] = [] := by simp [words]

/-- The words of a text lie on either side of each of its blanks. -/
lemma words_append_cons (hc : isBlank c = true) (a b : List Char) :
    words (a ++ c :: b) = words a ++ words b := by
  rw [words, List.splitOnP_append_cons a b hc, List.filter_append, words, words]

/-- A text without blanks is one word. -/
lemma words_of_visible (hne : word ≠ []) (h : ∀ c ∈ word, isBlank c = false) :
    words word = [word] := by
  rw [words, List.splitOnP_eq_singleton h]
  simp [hne]

lemma words_cons_blank (hc : isBlank c = true) (cs : List Char) : words (c :: cs) = words cs := by
  simpa using words_append_cons hc [] cs

/-- Blanks have no words. -/
lemma words_of_allBlank (h : allBlank cs = true) : words cs = [] := by
  induction cs with
  | nil => exact words_nil
  | cons c rest ih =>
      rw [allBlank, List.all_cons, Bool.and_eq_true] at h
      rw [words_cons_blank h.1]
      exact ih h.2

/-- Where blanks begin, a word is at its end. -/
lemma words_append_blank_left (hne : a ≠ []) (ha : allBlank a = true) (front b : List Char) :
    words (front ++ (a ++ b)) = words front ++ words b := by
  obtain ⟨c, rest, rfl⟩ := List.exists_cons_of_ne_nil hne
  rw [allBlank, List.all_cons, Bool.and_eq_true] at ha
  rw [List.cons_append, words_append_cons ha.1]
  congr 1
  have hrest := ha.2
  clear ha hne
  induction rest with
  | nil => rfl
  | cons d more ih =>
      rw [List.all_cons, Bool.and_eq_true] at hrest
      rw [List.cons_append, words_cons_blank hrest.1, ih hrest.2]

/-- A text falls apart into its first word and what follows the blank behind it. -/
lemma words_induction {P : List Char → Prop} (last : ∀ word, (∀ c ∈ word, isBlank c = false) → P word)
    (next : ∀ word c rest, (∀ c ∈ word, isBlank c = false) → isBlank c = true → P rest →
      P (word ++ c :: rest)) (cs : List Char) : P cs := by
  suffices h : ∀ front, (∀ c ∈ front, isBlank c = false) → P (front ++ cs) from h [] nofun
  induction cs with
  | nil =>
      intro front hfront
      rw [List.append_nil]
      exact last front hfront
  | cons c rest ih =>
      intro front hfront
      cases hc : isBlank c with
      | true => exact next front c rest hfront hc (ih [] nofun)
      | false =>
          rw [List.append_cons]
          refine ih (front ++ [c]) fun d hd => ?_
          rcases List.mem_append.mp hd with hd | hd
          · exact hfront d hd
          · exact List.mem_singleton.mp hd ▸ hc

/-! ### Runs -/

/-- Two runs meet at a blank: one of them is made of blanks. -/
def Apart (run next : List Char) : Prop := allBlank run = true ∨ allBlank next = true

/-- Runs that meet at blanks have no words but their own. -/
lemma words_flatten (hne : ∀ run ∈ runs, run ≠ []) (h : runs.IsChain Apart) :
    words runs.flatten = runs.flatMap words := by
  induction runs with
  | nil => exact words_nil
  | cons run more ih =>
      rw [List.forall_mem_cons] at hne
      rw [List.isChain_cons] at h
      rw [List.flatMap_cons, ← ih hne.2 h.2, List.flatten_cons]
      by_cases hrun : allBlank run = true
      · have hwords := words_append_blank_left hne.1 hrun [] more.flatten
        rw [List.nil_append, words_nil] at hwords
        rw [hwords, words_of_allBlank hrun]
      · cases more with
        | nil => rw [List.flatten_nil, List.append_nil, words_nil, List.append_nil]
        | cons next more =>
            have hnext := (h.1 next rfl).resolve_left hrun
            have hne' := hne.2 next List.mem_cons_self
            have hwords := words_append_blank_left hne' hnext [] more.flatten
            rw [List.nil_append, words_nil, List.nil_append] at hwords
            rw [List.flatten_cons, words_append_blank_left hne' hnext, hwords]

/-- Runs of ASCII blanks and of other characters by turns, none of them empty; the flag says whether
the first one is blank. -/
def Turns : Bool → List (List Char) → Prop
  | _, [] => True
  | v, run :: more => run ≠ [] ∧ (∀ c ∈ run, isAsciiBlank c = v) ∧ Turns (!v) more

lemma turns_chunks (cs : List Char) : ∃ v, Turns v (chunks cs) := by
  induction cs with
  | nil => exact ⟨true, trivial⟩
  | cons c rest ih =>
      obtain ⟨v, hv⟩ := ih
      have hone : ∀ {more : List (List Char)}, Turns (!isAsciiBlank c) more →
          Turns (isAsciiBlank c) ([c] :: more) := fun hmore =>
        ⟨List.cons_ne_nil _ _, List.forall_mem_singleton.mpr rfl, hmore⟩
      rw [chunks]
      split
      · rename_i d run more heq
        rw [heq] at hv
        obtain ⟨hne, hrun, hmore⟩ := hv
        have hd := hrun d List.mem_cons_self
        split
        · rename_i halike
          exact ⟨v, List.cons_ne_nil _ _, List.forall_mem_cons.mpr ⟨halike.trans hd, hrun⟩, hmore⟩
        · rename_i hunlike
          rw [hd, ← ne_eq, ← Bool.eq_not] at hunlike
          refine ⟨isAsciiBlank c, hone ?_⟩
          rw [hunlike, Bool.not_not]
          exact ⟨hne, hrun, hmore⟩
      · rename_i hother
        cases hmore : chunks rest with
        | nil => exact ⟨isAsciiBlank c, hone trivial⟩
        | cons run more =>
            rw [hmore] at hv
            obtain ⟨d, run, rfl⟩ := List.exists_cons_of_ne_nil hv.1
            exact absurd hmore (hother d run more)

lemma allBlank_of_ascii (h : ∀ c ∈ run, isAsciiBlank c = true) : allBlank run = true :=
  List.all_eq_true.mpr fun c hc => isBlank_of_isAsciiBlank (h c hc)

lemma Turns.ne_nil (h : Turns v runs) : ∀ run ∈ runs, run ≠ [] := by
  induction runs generalizing v with
  | nil => exact nofun
  | cons run more ih => exact List.forall_mem_cons.mpr ⟨h.1, ih h.2.2⟩

lemma Turns.isChain (h : Turns v runs) : runs.IsChain Apart := by
  induction runs generalizing v with
  | nil => exact .nil
  | cons run more ih =>
      obtain ⟨-, hrun, hmore⟩ := h
      refine List.isChain_cons.mpr ⟨fun next hnext => ?_, ih hmore⟩
      cases more with
      | nil => exact nomatch hnext
      | cons first rest =>
          obtain rfl := Option.some.inj hnext
          cases v with
          | true => exact .inl (allBlank_of_ascii hrun)
          | false => exact .inr (allBlank_of_ascii hmore.2.1)

/-! ### Filling -/

namespace Filling

variable {s : Filling}

/-- The runs that have been taken, the latest first, have the words of the lines that are done and of
the present line, which is made of the latest of them. -/
structure Keeps (seen : List (List Char)) (s : Filling) : Prop where
  words : s.done.reverse.flatMap Text.words ++ s.line.reverse.flatMap Text.words =
    seen.reverse.flatMap Text.words
  line : s.line <+: seen
  fresh : s.fresh = true → s.line = []

/-- Runs that may be filled in, the latest first. -/
structure Runs (seen : List (List Char)) : Prop where
  ne_nil : ∀ run ∈ seen, run ≠ []
  chain : seen.IsChain Apart

lemma keeps_start : start.Keeps [] := ⟨rfl, List.nil_prefix, fun _ => rfl⟩

/-- Without the blank run at its end the present line has the same words. -/
lemma flatMap_settled (s : Filling) :
    s.settled.reverse.flatMap Text.words = s.line.reverse.flatMap Text.words := by
  rw [settled]
  split
  · rename_i last rest hline
    rw [hline]
    split
    · rename_i hblank
      rw [List.reverse_cons, List.flatMap_append, List.flatMap_singleton,
        words_of_allBlank hblank, List.append_nil]
    · rfl
  · rename_i hline
    rw [hline]

lemma settled_suffix (s : Filling) : s.settled <:+ s.line := by
  rw [settled]
  split
  · rename_i last rest hline
    rw [hline]
    split
    · exact List.suffix_cons last rest
    · exact List.suffix_rfl
  · exact List.nil_suffix

/-- A line that ends is done with the words that were on it. -/
lemma Keeps.flush (h : s.Keeps seen) (hseen : Runs seen) : s.flush.Keeps seen := by
  have hwords := flatMap_settled s
  have hmem : ∀ run ∈ s.settled.reverse, run ≠ [] := fun run hrun =>
    hseen.ne_nil run (h.line.subset (s.settled_suffix.subset (List.mem_reverse.mp hrun)))
  have hline : s.line.IsChain Apart := List.IsChain.prefix hseen.chain h.line
  have hchain : s.settled.reverse.IsChain Apart := by
    rw [List.isChain_reverse]
    exact (hline.suffix s.settled_suffix).imp fun _ _ => Or.symm
  rw [Filling.flush]
  split
  · rename_i hnone
    rw [hnone, List.reverse_nil, List.flatMap_nil] at hwords
    refine ⟨?_, List.nil_prefix, fun _ => rfl⟩
    rw [← h.words, ← hwords]
    rfl
  · refine ⟨?_, List.nil_prefix, fun _ => rfl⟩
    rw [List.reverse_cons, List.flatMap_append, List.flatMap_singleton, words_flatten hmem hchain,
      hwords, List.reverse_nil, List.flatMap_nil, List.append_nil]
    exact h.words

/-- A run is put on the present line, which is empty or has room for it. -/
lemma Keeps.place (h : s.Keeps seen) (hseen : Runs (run :: seen))
    (hroom : s.line = [] ∨ fits (s.used + run.length) = true) :
    (s.place fits run).Keeps (run :: seen) := by
  have hnext : (run :: seen).reverse.flatMap Text.words =
      seen.reverse.flatMap Text.words ++ Text.words run := by
    rw [List.reverse_cons, List.flatMap_append, List.flatMap_singleton]
  rw [Filling.place]
  split
  · rename_i hskip
    rw [Bool.and_eq_true, Bool.and_eq_true] at hskip
    have hline := h.fresh hskip.1.1
    refine ⟨?_, ?_, fun hfresh => absurd hfresh Bool.false_ne_true⟩
    · rw [hnext, words_of_allBlank hskip.2, List.append_nil]
      exact h.words
    · rw [hline]
      exact List.nil_prefix
  · split
    · have hline : run :: s.line <+: run :: seen :=
        List.prefix_cons_iff.mpr (.inr ⟨_, rfl, h.line⟩)
      refine ⟨?_, hline, fun hfresh => absurd hfresh Bool.false_ne_true⟩
      rw [hnext, ← h.words, List.reverse_cons, List.flatMap_append, List.flatMap_singleton,
        List.append_assoc]
    · rename_i hfull
      have hline := hroom.resolve_right hfull
      have hlone : Keeps (run :: seen) ⟨s.done, [run], run.length, false⟩ := by
        have hrun : [run] <+: run :: seen :=
          List.prefix_cons_iff.mpr (.inr ⟨_, rfl, List.nil_prefix⟩)
        refine ⟨?_, hrun, fun hfresh => absurd hfresh Bool.false_ne_true⟩
        rw [hnext, ← h.words, hline, List.reverse_singleton, List.flatMap_singleton,
          List.reverse_nil, List.flatMap_nil, List.append_nil]
      exact hlone.flush hseen

/-- **One run.** -/
lemma Keeps.step (h : s.Keeps seen) (hseen : Runs (run :: seen)) :
    (s.step fits run).Keeps (run :: seen) := by
  have hbefore : Runs seen :=
    ⟨fun r hr => hseen.ne_nil r (List.mem_cons_of_mem _ hr), hseen.chain.tail⟩
  rw [Filling.step]
  split
  · rename_i hroom
    rw [Bool.or_eq_true, List.isEmpty_iff] at hroom
    exact h.place hseen hroom
  · refine (h.flush hbefore).place hseen (.inl ?_)
    rw [Filling.flush]
    split <;> rfl

/-- All runs of a paragraph. -/
lemma Keeps.foldl (h : s.Keeps seen) (hruns : Runs (runs.reverse ++ seen)) :
    (runs.foldl (Filling.step fits) s).Keeps (runs.reverse ++ seen) := by
  induction runs generalizing s seen with
  | nil => exact h
  | cons run more ih =>
      rw [List.reverse_cons, List.append_assoc, List.singleton_append] at hruns ⊢
      refine ih (h.step ⟨fun r hr => ?_, ?_⟩) hruns
      · exact hruns.ne_nil r (List.mem_append_right _ hr)
      · exact hruns.chain.suffix (List.suffix_append _ _)

end Filling

/-! ### Paragraphs -/

lemma words_expandTabs (front : List Char) (column : ℕ) (cs : List Char) :
    words (front ++ expandTabs column cs) = words (front ++ cs) := by
  induction cs generalizing front column with
  | nil => rfl
  | cons c rest ih =>
      rw [expandTabs]
      split
      · rename_i hc
        have hne : List.replicate (tabStop - column % tabStop) ' ' ≠ [] := by
          have hlt : column % tabStop < tabStop := Nat.mod_lt _ (by decide)
          rw [ne_eq, List.replicate_eq_nil_iff]
          omega
        have hblank : allBlank (List.replicate (tabStop - column % tabStop) ' ') = true :=
          List.all_eq_true.mpr fun d hd => (List.mem_replicate.mp hd).2 ▸ by decide
        have hrest := ih [] (column + (tabStop - column % tabStop))
        rw [List.nil_append, List.nil_append] at hrest
        rw [words_append_blank_left hne hblank, hrest, hc, words_append_cons (by decide)]
      · split
        · rw [List.append_cons, ih, ← List.append_cons]
        · rw [List.append_cons, ih, ← List.append_cons]

lemma words_respace (cs : List Char) : words (respace cs) = words cs := by
  have hmap : ∀ front cs : List Char,
      words (front ++ cs.map fun c => if isAsciiBlank c then ' ' else c) = words (front ++ cs) := by
    intro front cs
    induction cs generalizing front with
    | nil => rfl
    | cons c rest ih =>
        rw [List.map_cons]
        split
        · rename_i hc
          have hrest := ih []
          rw [List.nil_append, List.nil_append] at hrest
          rw [words_append_cons (by decide), words_append_cons (isBlank_of_isAsciiBlank hc), hrest]
        · rw [List.append_cons, ih, ← List.append_cons]
  exact (hmap [] _).trans (words_expandTabs [] 0 cs)

/-- No line feed is left in a paragraph that is filled. -/
lemma not_mem_respace (cs : List Char) : '\n' ∉ respace cs := by
  intro hbreak
  obtain ⟨c, -, hc⟩ := List.mem_map.mp hbreak
  split at hc
  · exact absurd hc (by decide)
  · rename_i hvisible
    rw [hc] at hvisible
    exact hvisible (by decide)

/-- **The lines of a filled paragraph have its words.** -/
lemma words_fillParagraph (fits : ℕ → Bool) (cs : List Char) :
    (fillParagraph fits cs).flatMap words = words cs := by
  obtain ⟨v, hturns⟩ := turns_chunks (respace cs)
  have hruns : Filling.Runs ((chunks (respace cs)).reverse ++ []) := by
    rw [List.append_nil]
    refine ⟨fun run hrun => hturns.ne_nil run (List.mem_reverse.mp hrun), ?_⟩
    exact List.isChain_reverse.mpr (hturns.isChain.imp fun _ _ => Or.symm)
  have hkeeps : Filling.Keeps ((chunks (respace cs)).reverse ++ [])
      ((chunks (respace cs)).foldl (Filling.step fits) Filling.start).flush :=
    (Filling.keeps_start.foldl hruns).flush hruns
  have hline : (((chunks (respace cs)).foldl (Filling.step fits) Filling.start).flush).line = [] := by
    rw [Filling.flush]
    split <;> rfl
  have hwords := hkeeps.words
  rw [hline, List.reverse_nil, List.flatMap_nil, List.append_nil, List.append_nil,
    List.reverse_reverse] at hwords
  rw [fillParagraph, Filling.lines, hwords, ← words_flatten hturns.ne_nil hturns.isChain,
    flatten_chunks, words_respace]

lemma words_paragraphLines (fits : ℕ → Bool) (cs : List Char) :
    (paragraphLines fits cs).flatMap words = words cs := by
  rw [paragraphLines]
  split
  · rename_i hblank
    rw [words_of_allBlank hblank, List.flatMap_singleton, words_nil]
  · exact words_fillParagraph fits cs

/-- Lines have the words of the text that they make up. -/
lemma words_joinLines (lines : List (List Char)) : words (joinLines lines) = lines.flatMap words := by
  induction lines with
  | nil => exact words_nil
  | cons line more ih =>
      cases more with
      | nil => rw [joinLines, List.flatMap_singleton]
      | cons next more =>
          rw [joinLines, words_append_cons (by decide), ih, ← List.flatMap_cons]
          exact fun hnil => by cases hnil

/-- **Filling keeps the words of a text.** -/
lemma words_wrapText (fits : ℕ → Bool) (cs : List Char) : words (wrapText fits cs) = words cs := by
  rw [wrapText, words_joinLines, List.flatMap_assoc]
  simp only [words_paragraphLines]
  rw [← words_joinLines, joinLines_splitLines]

end Blockscribe.Text
