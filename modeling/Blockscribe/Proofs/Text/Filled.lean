/-
What filling leaves of the blanks of a text.

* `Text.IsPlain`: texts without blanks that ASCII does not have. Of such texts the runs that are
  filled in are blank and visible by turns (`Alternates`, `alternates_chunks`).
* `Filling.Sound`: the lines that are done are firm, and the runs on the present line alternate. Every
  step of filling keeps this (`Sound.step`), and so do whole runs of it (`Sound.foldl`).
* `firm_of_mem_fillParagraph`, `Block.HasPlainComment.isFirm`: so a plain comment that has been filled
  has empty lines and lines with something in them, and no others.
-/
import Blockscribe.Comment
import Blockscribe.Proofs.Text.Firm
import Blockscribe.Proofs.Text.Words

namespace Blockscribe

namespace Text

variable {cs run : List Char} {runs : List (List Char)} {v : Bool} {fits : ℕ → Bool}

/-! ### Runs -/

/-- A text without blanks other than those of ASCII. -/
def IsPlain (cs : List Char) : Prop := ∀ c ∈ cs, isBlank c = isAsciiBlank c

instance (cs : List Char) : Decidable (IsPlain cs) :=
  List.decidableBAll (fun c => isBlank c = isAsciiBlank c) cs

/-- Runs that are blank and visible by turns, none of them empty; the flag says whether the first one
is blank. No line feed is in them. -/
def Alternates : Bool → List (List Char) → Prop
  | _, [] => True
  | v, run :: more => run ≠ [] ∧ (∀ c ∈ run, isBlank c = v ∧ c ≠ '\n') ∧ Alternates (!v) more

lemma Alternates.flat (h : Alternates v runs) : '\n' ∉ runs.flatten := by
  induction runs generalizing v with
  | nil => exact List.not_mem_nil
  | cons run more ih => exact not_mem_append (fun hmem => (h.2.1 _ hmem).2 rfl) (ih h.2.2)

/-- A visible run is firm. -/
lemma isFirm_of_visible (hne : run ≠ []) (h : ∀ c ∈ run, isBlank c = false ∧ c ≠ '\n') :
    IsFirm run := by
  obtain ⟨c, rest, rfl⟩ := List.exists_cons_of_ne_nil hne
  have hc := (h c List.mem_cons_self).1
  refine ⟨c, List.mem_cons_self, ?_, ?_⟩ <;> rintro rfl <;> exact absurd hc (by decide)

/-- In a text with no blanks but those of ASCII, runs by turns are blank and visible by turns. -/
lemma Turns.alternates (h : Turns v runs) (hplain : IsPlain runs.flatten)
    (hflat : '\n' ∉ runs.flatten) : Alternates v runs := by
  induction runs generalizing v with
  | nil => trivial
  | cons run more ih =>
      rw [List.flatten_cons] at hplain hflat
      refine ⟨h.1, fun c hc => ⟨?_, ?_⟩, ih h.2.2 ?_ ?_⟩
      · exact (hplain c (List.mem_append_left _ hc)).trans (h.2.1 c hc)
      · rintro rfl
        exact hflat (List.mem_append_left _ hc)
      · exact fun c hc => hplain c (List.mem_append_right _ hc)
      · exact fun hmem => hflat (List.mem_append_right _ hmem)

lemma alternates_chunks (hplain : IsPlain cs) (hflat : '\n' ∉ cs) :
    ∃ v, Alternates v (chunks cs) := by
  obtain ⟨v, hturns⟩ := turns_chunks cs
  rw [← flatten_chunks cs] at hplain hflat
  exact ⟨v, hturns.alternates hplain hflat⟩

/-! ### Filling -/

namespace Filling

variable {s : Filling}

/-- Where the next run is of the kind `v`: the lines that are done are firm, and the runs on the
present line alternate up to the next one. -/
structure Sound (v : Bool) (s : Filling) : Prop where
  done : ∀ line ∈ s.done, '\n' ∉ line ∧ IsFirm line
  line : Alternates (!v) s.line
  fresh : s.fresh = true → s.line = []

lemma sound_start (v : Bool) : start.Sound v := ⟨nofun, trivial, fun _ => rfl⟩

/-- A line that ends with a visible run. -/
lemma firm_of_visible_end (h : Alternates false (run :: runs)) :
    '\n' ∉ (run :: runs).reverse.flatten ∧ IsFirm (run :: runs).reverse.flatten := by
  refine ⟨fun hmem => h.flat ?_, ?_⟩
  · obtain ⟨part, hpart, hbreak⟩ := List.mem_flatten.mp hmem
    exact List.mem_flatten.mpr ⟨part, List.mem_reverse.mp hpart, hbreak⟩
  · rw [List.reverse_cons, List.flatten_append, List.flatten_singleton]
    exact (isFirm_of_visible h.1 h.2.1).append_right _

/-- Without the blank run at its end a line has no run, or it ends with a visible one. -/
lemma settled_or (h : Alternates v s.line) :
    s.settled = [] ∨ '\n' ∉ s.settled.reverse.flatten ∧ IsFirm s.settled.reverse.flatten := by
  cases hline : s.line with
  | nil => exact .inl (by rw [settled, hline])
  | cons last rest =>
      have hsettled : s.settled = if allBlank last = true then rest else last :: rest := by
        rw [settled, hline]
      rw [hline] at h
      cases v with
      | false =>
          obtain ⟨c, more, rfl⟩ := List.exists_cons_of_ne_nil h.1
          have hvisible : allBlank (c :: more) = false := by
            rw [allBlank, List.all_cons, (h.2.1 c List.mem_cons_self).1, Bool.false_and]
          rw [hsettled, if_neg (Bool.eq_false_iff.mp hvisible)]
          exact .inr (firm_of_visible_end h)
      | true =>
          have hblank : allBlank last = true := List.all_eq_true.mpr fun c hc => (h.2.1 c hc).1
          rw [hsettled, if_pos hblank]
          cases rest with
          | nil => exact .inl rfl
          | cons word more => exact .inr (firm_of_visible_end h.2.2)

/-- Where a line ends, any run may follow. -/
lemma Sound.flush (h : s.Sound v) (v' : Bool) : s.flush.Sound v' := by
  rw [Filling.flush]
  split
  · exact ⟨h.done, trivial, fun _ => rfl⟩
  · rename_i runs hruns
    have hsettled := (settled_or h.line).resolve_left (hruns ·)
    exact ⟨List.forall_mem_cons.mpr ⟨hsettled, h.done⟩, trivial, fun _ => rfl⟩

lemma Sound.place (h : s.Sound v) (hne : run ≠ []) (hrun : ∀ c ∈ run, isBlank c = v ∧ c ≠ '\n') :
    (s.place fits run).Sound (!v) := by
  have hline : Alternates v (run :: s.line) := ⟨hne, hrun, h.line⟩
  rw [Filling.place]
  split
  · rename_i hskip
    rw [Bool.and_eq_true, Bool.and_eq_true] at hskip
    refine ⟨h.done, ?_, fun hfresh => absurd hfresh Bool.false_ne_true⟩
    rw [h.fresh hskip.1.1]
    exact trivial
  · split
    · have hpresent : Alternates (!(!v)) (run :: s.line) := by rwa [Bool.not_not]
      exact ⟨h.done, hpresent, fun hfresh => absurd hfresh Bool.false_ne_true⟩
    · have hpresent : Alternates (!(!v)) [run] := by
        rw [Bool.not_not]
        exact ⟨hne, hrun, trivial⟩
      have hlone : Sound (!v) ⟨s.done, [run], run.length, false⟩ :=
        ⟨h.done, hpresent, fun hfresh => absurd hfresh Bool.false_ne_true⟩
      exact hlone.flush _

/-- **One run.** -/
lemma Sound.step (h : s.Sound v) (hne : run ≠ []) (hrun : ∀ c ∈ run, isBlank c = v ∧ c ≠ '\n') :
    (s.step fits run).Sound (!v) := by
  rw [Filling.step]
  split
  · exact h.place hne hrun
  · exact (h.flush v).place hne hrun

/-- All runs of a paragraph. -/
lemma Sound.foldl (h : s.Sound v) (hruns : Alternates v runs) :
    ∃ v', (runs.foldl (Filling.step fits) s).Sound v' := by
  induction runs generalizing s v with
  | nil => exact ⟨v, h⟩
  | cons run more ih => exact ih (h.step hruns.1 hruns.2.1) hruns.2.2

end Filling

/-! ### Paragraphs -/

lemma mem_expandTabs {column : ℕ} {c : Char} (h : c ∈ expandTabs column cs) : c = ' ' ∨ c ∈ cs := by
  induction cs generalizing column with
  | nil => exact .inr h
  | cons d rest ih =>
      rw [expandTabs] at h
      split at h
      · rcases List.mem_append.mp h with h | h
        · exact .inl (List.mem_replicate.mp h).2
        · exact (ih h).imp_right (List.mem_cons_of_mem d)
      · split at h
        all_goals
          rcases List.mem_cons.mp h with rfl | h
          · exact .inr List.mem_cons_self
          · exact (ih h).imp_right (List.mem_cons_of_mem d)

/-- A paragraph that is filled has no blanks but spaces, if it is plain. -/
lemma plain_respace (h : IsPlain cs) : IsPlain (respace cs) := by
  intro c hc
  obtain ⟨d, hd, rfl⟩ := List.mem_map.mp hc
  split
  · decide
  · rename_i hvisible
    rcases mem_expandTabs hd with rfl | hmem
    · exact absurd (by decide) hvisible
    · exact h d hmem

/-- **Every line of a filled paragraph has something in it**, if the paragraph is plain. -/
lemma firm_of_mem_fillParagraph (h : IsPlain cs) :
    ∀ line ∈ fillParagraph fits cs, '\n' ∉ line ∧ IsFirm line := by
  obtain ⟨v, hruns⟩ := alternates_chunks (plain_respace h) (not_mem_respace cs)
  obtain ⟨v', hsound⟩ : ∃ v', ((chunks (respace cs)).foldl (Filling.step fits)
      Filling.start).Sound v' := (Filling.sound_start v).foldl hruns
  intro line hline
  rw [fillParagraph, Filling.lines, List.mem_reverse] at hline
  exact (hsound.flush true).done line hline

lemma mem_splitLines_joinLines {lines : List (List Char)} (h : ∀ line ∈ lines, '\n' ∉ line) :
    ∀ line ∈ splitLines (joinLines lines), line = [] ∨ line ∈ lines := by
  by_cases hne : lines = []
  · rw [hne]
    exact fun line hline => .inl (List.mem_singleton.mp hline)
  · rw [splitLines_joinLines hne h]
    exact fun line hline => .inr hline

lemma mem_of_mem_splitLines {line : List Char} (h : line ∈ splitLines cs) {c : Char} (hc : c ∈ line) :
    c ∈ cs := by
  induction cs using lines_induction with
  | last only hl =>
      rw [splitLines_of_not_mem hl, List.mem_singleton] at h
      exact h ▸ hc
  | line first rest hl ih =>
      rw [splitLines_line hl, List.mem_cons] at h
      rcases h with rfl | h
      · exact List.mem_append_left _ hc
      · exact List.mem_append_right _ (List.mem_cons_of_mem _ (ih h))

/-- Every paragraph of a plain text gives an empty line or lines with something in them. -/
lemma isFirm_of_wrapText (h : IsPlain cs) :
    ∀ line ∈ splitLines (wrapText fits cs), line ≠ [] → IsFirm line := by
  have hlines : ∀ line ∈ (splitLines cs).flatMap (paragraphLines fits),
      '\n' ∉ line ∧ (line ≠ [] → IsFirm line) := by
    intro line hline
    obtain ⟨paragraph, hparagraph, hmem⟩ := List.mem_flatMap.mp hline
    rw [paragraphLines] at hmem
    split at hmem
    · obtain rfl := List.mem_singleton.mp hmem
      exact ⟨List.not_mem_nil, fun hne => absurd rfl hne⟩
    · have hplain : IsPlain paragraph := fun c hc => h c (mem_of_mem_splitLines hparagraph hc)
      exact (firm_of_mem_fillParagraph hplain line hmem).imp_right fun hfirm _ => hfirm
  intro line hline hne
  have hmem := mem_splitLines_joinLines (fun line hline => (hlines line hline).1) line hline
  exact (hlines line (hmem.resolve_left hne)).2 hne

end Text

/-- A comment that is a plain text, if it is a text. -/
def Block.HasPlainComment (b : Block) : Prop :=
  ∀ text, b.comment = .text text → Text.IsPlain text.toList

/-- Filled, a plain comment has empty lines and lines with something in them, and no others. -/
lemma Block.HasPlainComment.isFirm {b : Block} (h : b.HasPlainComment) {width : Extent}
    {comment : String} (hfilled : fillComment width b.comment = .ok comment) :
    ∀ line ∈ Text.splitLines comment.toList, line ≠ [] → IsFirm line := by
  unfold fillComment at hfilled
  by_cases hnone : (!b.comment.isTruthy) = true
  · rw [if_pos hnone] at hfilled
    obtain rfl := Except.ok.inj hfilled
    exact fun line hline hne => absurd (List.mem_singleton.mp hline) hne
  rw [if_neg hnone] at hfilled
  split at hfilled
  · rename_i text htext
    rw [fillText] at hfilled
    split at hfilled
    · cases hfilled
    · obtain rfl := Except.ok.inj hfilled
      rw [String.toList_ofList]
      exact Text.isFirm_of_wrapText (h text htext)
  · cases hfilled

end Blockscribe
