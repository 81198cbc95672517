/-
What filling to a width makes of the paragraphs of a text.

* `Filling.Within`: the invariant of filling. The present line is within the width, and so are the
  lines that are done, but for those that are a single run with something visible in it;
  `Within.step` says that every step keeps this.
* `Fills`: what becomes of a paragraph: lines that hold its words, one empty line if it is blank,
  and no line that is too long but a run of its own. `fills_paragraphLines` says that filling gives
  such lines.
* `fillText_keeps`: so filling to a width of one column or more succeeds, keeps the words and the
  line breaks of the text, and leaves no line too long that could have been cut at an ASCII blank.
-/
import Blockscribe.Comment
import Blockscribe.Proofs.Number.Width
import Blockscribe.Proofs.Text.CodeLines
import Blockscribe.Proofs.Text.Words

namespace Blockscribe

namespace Text

variable {cs line run : List Char} {lines runs more : List (List Char)} {fits : ℕ → Bool}

/-! ### Filling -/

namespace Filling

variable {s : Filling}

/-- A line that is made of `runs` and within the width, or one of them with something visible in it.
-/
def IsLine (fits : ℕ → Bool) (runs : List (List Char)) (line : List Char) : Prop :=
  line ⊆ runs.flatten ∧ (fits line.length = true ∨ line ∈ runs ∧ allBlank line = false)

/-- The lines that are done are made of `runs`, and they are within the width but for those that are
a single run. The present line is made of runs that are within the width together. -/
structure Within (fits : ℕ → Bool) (runs : List (List Char)) (s : Filling) : Prop where
  done : ∀ line ∈ s.done, IsLine fits runs line
  line : s.line ⊆ runs
  used : s.used = (s.line.map List.length).sum
  room : s.line ≠ [] → fits s.used = true

/-- Where nothing is on the present line, only the lines that are done count. -/
lemma within_fresh {done : List (List Char)} (h : ∀ line ∈ done, IsLine fits runs line) :
    Within fits runs ⟨done, [], 0, true⟩ :=
  ⟨h, List.nil_subset _, rfl, fun hne => absurd rfl hne⟩

/-- Where a line ends, what is left of it without the blank run at its end is within the width or a
single run. -/
lemma within_flush (hdone : ∀ line ∈ s.done, IsLine fits runs line) (hline : s.line ⊆ runs)
    (hpresent : fits (s.settled.map List.length).sum = true ∨
      ∀ last rest, s.settled = last :: rest → rest = [] ∧ allBlank last = false) :
    s.flush.Within fits runs := by
  have htaken : s.settled ⊆ runs := fun _ hrun => hline (s.settled_suffix.subset hrun)
  rw [flush]
  split
  · exact within_fresh hdone
  · rename_i hsettled
    refine within_fresh (List.forall_mem_cons.mpr ⟨⟨fun c hc => ?_, ?_⟩, hdone⟩)
    · obtain ⟨run, hrun, hmem⟩ := List.mem_flatten.mp hc
      exact List.mem_flatten.mpr ⟨run, htaken (List.mem_reverse.mp hrun), hmem⟩
    · refine hpresent.imp (fun hfits => ?_) fun hlone => ?_
      · rwa [List.length_flatten, List.map_reverse, List.sum_reverse]
      · obtain ⟨last, rest, hcons⟩ := List.exists_cons_of_ne_nil hsettled
        obtain ⟨rfl, hvisible⟩ := hlone last rest hcons
        rw [hcons] at htaken ⊢
        rw [List.reverse_singleton, List.flatten_singleton]
        exact ⟨htaken List.mem_cons_self, hvisible⟩

/-- A run is put where there is room for it, or on a line of its own. -/
lemma Within.place (h : s.Within fits runs) (hrun : run ∈ runs) :
    (s.place fits run).Within fits runs := by
  rw [Filling.place]
  split
  · exact ⟨h.done, h.line, h.used, h.room⟩
  · split
    · rename_i hfits
      refine ⟨h.done, List.cons_subset.mpr ⟨hrun, h.line⟩, ?_, fun _ => hfits⟩
      rw [List.map_cons, List.sum_cons, ← h.used, Nat.add_comm]
    · refine within_flush h.done (List.cons_subset.mpr ⟨hrun, List.nil_subset _⟩) (.inr ?_)
      intro last rest hsettled
      by_cases hblank : allBlank run = true
      · have hnone : settled ⟨s.done, [run], run.length, false⟩ = [] := if_pos hblank
        exact absurd (hnone.symm.trans hsettled) (List.cons_ne_nil _ _).symm
      · have hlone : settled ⟨s.done, [run], run.length, false⟩ = [run] := if_neg hblank
        obtain ⟨rfl, rfl⟩ := List.cons.inj (hsettled.symm.trans hlone)
        exact ⟨rfl, Bool.eq_false_iff.mpr hblank⟩

variable (hmono : ∀ {m n : ℕ}, m ≤ n → fits n = true → fits m = true)
include hmono

lemma Within.flush (h : s.Within fits runs) : s.flush.Within fits runs := by
  refine within_flush h.done h.line ?_
  by_cases hempty : s.line = []
  · refine .inr fun last rest hcons => ?_
    have hnone := s.settled_suffix.subset (hcons ▸ List.mem_cons_self)
    rw [hempty] at hnone
    exact absurd hnone List.not_mem_nil
  · have hle : (s.settled.map List.length).sum ≤ s.used := by
      obtain ⟨front, hfront⟩ := s.settled_suffix
      rw [h.used, ← hfront, List.map_append, List.sum_append]
      exact Nat.le_add_left _ _
    exact .inl (hmono hle (h.room hempty))

/-- **One run.** -/
lemma Within.step (h : s.Within fits runs) (hrun : run ∈ runs) :
    (s.step fits run).Within fits runs := by
  rw [Filling.step]
  split
  · exact h.place hrun
  · exact (h.flush hmono).place hrun

/-- All runs of a paragraph. -/
lemma Within.foldl (h : s.Within fits runs) (hmore : more ⊆ runs) :
    (more.foldl (Filling.step fits) s).Within fits runs := by
  induction more generalizing s with
  | nil => exact h
  | cons run rest ih =>
      rw [List.cons_subset] at hmore
      exact ih (h.step hmono hmore.1) hmore.2

end Filling

/-! ### Paragraphs -/

/-- A text without words is blank. -/
lemma allBlank_of_words (h : words cs = []) : allBlank cs = true := by
  induction cs using words_induction with
  | last word hword =>
      cases word with
      | nil => rfl
      | cons c rest =>
          rw [words_of_visible (List.cons_ne_nil c rest) hword] at h
          exact absurd h (List.cons_ne_nil _ _)
  | next word c rest hword hc ih =>
      rw [words_append_cons hc, List.append_eq_nil_iff] at h
      cases word with
      | nil =>
          rw [List.nil_append, allBlank, List.all_cons, hc, Bool.true_and]
          exact ih h.2
      | cons d more =>
          rw [words_of_visible (List.cons_ne_nil d more) hword] at h
          exact absurd h.1 (List.cons_ne_nil _ _)

/-- A run is made of ASCII blanks, or has none. -/
lemma Turns.kind {v : Bool} (h : Turns v runs) :
    ∀ run ∈ runs, ∃ v', ∀ c ∈ run, isAsciiBlank c = v' := by
  induction runs generalizing v with
  | nil => exact nofun
  | cons run rest ih => exact List.forall_mem_cons.mpr ⟨⟨v, h.2.1⟩, ih h.2.2⟩

/-- The lines that stand for a paragraph: there is at least one, they hold the words of the
paragraph in their order, and a blank paragraph has an empty line. A line that is not within the
width is one of the runs into which the paragraph falls at its ASCII blanks, and has no such blank
in it. -/
structure Fills (fits : ℕ → Bool) (paragraph : List Char) (lines : List (List Char)) : Prop where
  ne_nil : lines ≠ []
  words : lines.flatMap Text.words = Text.words paragraph
  blank : allBlank paragraph = true → lines = [[]]
  long : ∀ line ∈ lines, fits line.length = false →
    line ∈ chunks (respace paragraph) ∧ ∀ c ∈ line, isAsciiBlank c = false

variable (hmono : ∀ {m n : ℕ}, m ≤ n → fits n = true → fits m = true)
include hmono

/-- The lines of a filled paragraph are within the width, or runs of their own. -/
lemma long_fillParagraph (cs : List Char) :
    ∀ line ∈ fillParagraph fits cs, '\n' ∉ line ∧ (fits line.length = false →
      line ∈ chunks (respace cs) ∧ ∀ c ∈ line, isAsciiBlank c = false) := by
  intro line hline
  rw [fillParagraph, Filling.lines, List.mem_reverse] at hline
  have hstart : Filling.start.Within fits (chunks (respace cs)) :=
    Filling.within_fresh (List.forall_mem_nil _)
  obtain ⟨hchars, hlong⟩ :=
    ((hstart.foldl hmono (List.Subset.refl _)).flush hmono).done line hline
  refine ⟨fun hbreak => ?_, fun hfull => ?_⟩
  · have hmem := hchars hbreak
    rw [flatten_chunks] at hmem
    exact not_mem_respace cs hmem
  · obtain ⟨hmem, hvisible⟩ := hlong.resolve_left (by rw [hfull]; exact Bool.false_ne_true)
    obtain ⟨v, hturns⟩ := turns_chunks (respace cs)
    obtain ⟨v', hkind⟩ := hturns.kind line hmem
    cases v' with
    | true => exact absurd (allBlank_of_ascii hkind) (Bool.eq_false_iff.mp hvisible)
    | false => exact ⟨hmem, hkind⟩

/-- **Filling a paragraph.** -/
lemma fills_paragraphLines (hone : fits 0 = true) (cs : List Char) :
    Fills fits cs (paragraphLines fits cs) ∧ ∀ line ∈ paragraphLines fits cs, '\n' ∉ line := by
  have hwords := words_paragraphLines fits cs
  by_cases hblank : allBlank cs = true
  · have hlines : paragraphLines fits cs = [[]] := if_pos hblank
    rw [hlines] at hwords ⊢
    refine ⟨⟨List.cons_ne_nil _ _, hwords, fun _ => rfl, fun line hline hfull => ?_⟩,
      List.forall_mem_singleton.mpr List.not_mem_nil⟩
    rw [List.mem_singleton.mp hline] at hfull
    exact absurd hone (Bool.eq_false_iff.mp hfull)
  · have hlines : paragraphLines fits cs = fillParagraph fits cs := if_neg hblank
    have hlong := long_fillParagraph hmono cs
    rw [hlines] at hwords ⊢
    refine ⟨⟨fun hnone => ?_, hwords, fun h => absurd h hblank, fun line hline =>
      (hlong line hline).2⟩, fun line hline => (hlong line hline).1⟩
    rw [hnone, List.flatMap_nil] at hwords
    exact hblank (allBlank_of_words hwords.symm)

end Text

/-! ### Texts -/

open Text

/-- **Filling keeps every word and every line break.** To a width in which one character fits, every
text can be filled. The words of the result are those of the text. Its lines are those of the
paragraphs, in their order: each paragraph has lines of its own, which hold its words, and a blank
paragraph has an empty line. A line that is not within the width has no ASCII blank at which it
could have been cut. -/
theorem fillText_keeps (width : Extent) (hwidth : width.fits 1 = true) (text : String) :
    ∃ filled, fillText width text = .ok filled ∧
      words filled.toList = words text.toList ∧
      ∃ groups, splitLines filled.toList = groups.flatten ∧
        List.Forall₂ (Fills width.fits) (splitLines text.toList) groups := by
  have hmono : ∀ {m n : ℕ}, m ≤ n → width.fits n = true → width.fits m = true :=
    fun hle => Extent.fits_of_le hle
  have hfills := fills_paragraphLines hmono (hmono (Nat.zero_le 1) hwidth)
  refine ⟨String.ofList (wrapText width.fits text.toList), ?_, ?_,
    (splitLines text.toList).map (paragraphLines width.fits), ?_, ?_⟩
  · rw [fillText, Extent.isUsable_of_fits hwidth]
    rfl
  · rw [String.toList_ofList, words_wrapText]
  · have hflat : ∀ line ∈ (splitLines text.toList).flatMap (paragraphLines width.fits),
        '\n' ∉ line := by
      intro line hline
      obtain ⟨paragraph, -, hmem⟩ := List.mem_flatMap.mp hline
      exact (hfills paragraph).2 line hmem
    obtain ⟨first, rest, hparagraphs⟩ := List.exists_cons_of_ne_nil (splitLines_ne_nil text.toList)
    have hne : (splitLines text.toList).flatMap (paragraphLines width.fits) ≠ [] := by
      rw [hparagraphs, List.flatMap_cons]
      exact List.append_ne_nil_of_left_ne_nil (hfills first).1.ne_nil _
    rw [String.toList_ofList, wrapText, splitLines_joinLines hne hflat, List.flatMap_def]
  · exact List.forall₂_map_right_iff.mpr (List.forall₂_same.mpr fun paragraph _ =>
      (hfills paragraph).1)

/-- Tabs and blanks between words, a word that is too long, and an empty line. -/
theorem fillText_keeps_narrowSample :
    (Extent.whole 4).fits 1 = true ∧
    fillText (.whole 4) "no\tway  unbreakable\n \n  end" = .ok "no\nway\nunbreakable\n\nend" ∧
    ∃ groups, splitLines "no\nway\nunbreakable\n\nend".toList = groups.flatten ∧
      List.Forall₂ (Fills (Extent.whole 4).fits)
        (splitLines "no\tway  unbreakable\n \n  end".toList) groups := by
  have hwidth : (Extent.whole 4).fits 1 = true := rfl
  obtain ⟨filled, hfilled, -, groups, hgroups, hfills⟩ :=
    fillText_keeps (.whole 4) hwidth "no\tway  unbreakable\n \n  end"
  have hresult : fillText (.whole 4) "no\tway  unbreakable\n \n  end" =
      .ok "no\nway\nunbreakable\n\nend" := rfl
  obtain rfl := Except.ok.inj (hresult.symm.trans hfilled)
  exact ⟨hwidth, hresult, groups, hgroups, hfills⟩

end Blockscribe
