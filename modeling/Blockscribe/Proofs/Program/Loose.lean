/-
Lines that have something in them, and empty lines between them.

* `Text.Firm`: texts every line of which has something other than spaces and tabs in it.
* `Text.Loose`: texts whose last line is such a line and, if they are neat, all others as well, but
  for single lines between two of them. They can be put together and led.
* `Text.Laid`: texts whose last line is firm, empty lines apart, and if they are neat, all others.
  `dropLastBreaks_squeeze` says that shortening the runs of line feeds makes a loose text of them,
  with line feeds in front of it.
* `Text.Sparse`: lines among which no three in a row are without something in them;
  `Loose.sparse` says that the lines of loose texts are, with up to two lines between them.
* `Program.Squeezed`: what shortening the runs of line feeds leaves; there is one lemma for each kind
  of line.
* `splitLines_dropLineEnds`: what is left of the lines when their ends are dropped.
-/
import Blockscribe.Proofs.Program.Shifted
import Blockscribe.Proofs.Text.Firm

namespace Blockscribe

namespace Text

variable {a b lead line rest : List Char} {neat : Prop}

/-! ### Texts with single gaps -/

/-- A text whose last line is firm. If it is neat, all others are as well, but for single lines
between two that are. -/
inductive Loose (neat : Prop) : List Char → Prop
  | line {line : List Char} : '\n' ∉ line → IsFirm line → Loose neat line
  | next {line rest : List Char} : '\n' ∉ line → (neat → IsFirm line) → Loose neat rest →
      Loose neat (line ++ '\n' :: rest)
  | gap {line between rest : List Char} : '\n' ∉ line → (neat → IsFirm line) → '\n' ∉ between →
      Loose neat rest → Loose neat (line ++ '\n' :: (between ++ '\n' :: rest))

lemma Firm.loose (h : Firm a) (neat : Prop) : Loose neat a := by
  induction h with
  | line hl hfirm => exact .line hl hfirm
  | next hl hfirm _ ih => exact .next hl (fun _ => hfirm) ih

lemma leadBreaks_line (h : '\n' ∉ line) (rest : List Char) :
    leadBreaks lead (line ++ '\n' :: rest) = line ++ '\n' :: (lead ++ leadBreaks lead rest) := by
  rw [leadBreaks_append_of_not_mem h, leadBreaks, if_pos rfl]

lemma leadBreaks_of_not_mem (h : '\n' ∉ line) : leadBreaks lead line = line :=
  (congrArg _ (List.append_nil line).symm).trans
    ((leadBreaks_append_of_not_mem h []).trans (List.append_nil line))

/-- Lines with a firm lead are firm. -/
lemma firm_leadBreaks (hlead : '\n' ∉ lead) (hfirm : IsFirm lead) (cs : List Char) :
    Firm (lead ++ leadBreaks lead cs) := by
  induction cs using lines_induction with
  | last line hl =>
      rw [leadBreaks_of_not_mem hl]
      exact .line (not_mem_append hlead hl) (hfirm.append_left line)
  | line line rest hl ih =>
      rw [leadBreaks_line hl, ← List.append_assoc]
      exact .next (not_mem_append hlead hl) (hfirm.append_left line) ih

/-- Firm lines that are led are firm. -/
lemma Firm.leadBreaks (h : Firm a) (hlead : '\n' ∉ lead) : Firm (lead ++ leadBreaks lead a) := by
  refine Firm.flat_append hlead ?_
  induction h with
  | line hl hfirm =>
      rw [leadBreaks_of_not_mem hl]
      exact .line hl hfirm
  | next hl hfirm _ ih =>
      rw [leadBreaks_line hl]
      exact .next hl hfirm (ih.flat_append hlead)

namespace Loose

lemma append_break (ha : Loose neat a) (hb : Loose neat b) : Loose neat (a ++ '\n' :: b) := by
  induction ha with
  | line hl hfirm => exact .next hl (fun _ => hfirm) hb
  | next hl hfirm _ ih =>
      rw [List.append_assoc]
      exact .next hl hfirm ih
  | gap hl hfirm hbetween _ ih =>
      rw [List.append_assoc, List.cons_append, List.append_assoc]
      exact .gap hl hfirm hbetween ih

lemma append_gap (ha : Loose neat a) (hb : Loose neat b) :
    Loose neat (a ++ '\n' :: '\n' :: b) := by
  induction ha with
  | line hl hfirm => exact .gap hl (fun _ => hfirm) List.not_mem_nil hb
  | next hl hfirm _ ih =>
      rw [List.append_assoc]
      exact .next hl hfirm ih
  | gap hl hfirm hbetween _ ih =>
      rw [List.append_assoc, List.cons_append, List.append_assoc]
      exact .gap hl hfirm hbetween ih

lemma flat_append (ha : '\n' ∉ a) (h : Loose neat b) : Loose neat (a ++ b) := by
  cases h with
  | line hl hfirm => exact .line (not_mem_append ha hl) (hfirm.append_right a)
  | next hl hfirm hrest =>
      rw [← List.append_assoc]
      exact .next (not_mem_append ha hl) (fun hneat => (hfirm hneat).append_right a) hrest
  | gap hl hfirm hbetween hrest =>
      rw [← List.append_assoc]
      exact .gap (not_mem_append ha hl) (fun hneat => (hfirm hneat).append_right a) hbetween hrest

lemma leadBreaks (h : Loose neat a) (hlead : '\n' ∉ lead) :
    Loose neat (lead ++ leadBreaks lead a) := by
  refine flat_append hlead ?_
  induction h with
  | line hl hfirm =>
      rw [leadBreaks_of_not_mem hl]
      exact .line hl hfirm
  | next hl hfirm _ ih =>
      rw [leadBreaks_line hl]
      exact .next hl hfirm (ih.flat_append hlead)
  | gap hl hfirm hbetween _ ih =>
      rw [leadBreaks_line hl, leadBreaks_line hbetween, ← List.append_assoc lead]
      exact .gap hl hfirm (not_mem_append hlead hbetween) (ih.flat_append hlead)

lemma ne_nil (h : Loose neat a) : a ≠ [] := by
  cases h with
  | line _ hfirm =>
      obtain ⟨c, hc, -⟩ := hfirm
      exact List.ne_nil_of_mem hc
  | next | gap => exact List.append_ne_nil_of_right_ne_nil _ (List.cons_ne_nil _ _)

lemma exists_last (h : Loose neat a) :
    ∃ front line, splitLines a = front ++ [line] ∧ IsFirm line := by
  induction h with
  | @line l hl hfirm => exact ⟨[], l, splitLines_of_not_mem hl, hfirm⟩
  | @next l rest hl _ _ ih =>
      obtain ⟨front, last, hlines, hlast⟩ := ih
      exact ⟨l :: front, last, by rw [splitLines_line hl, hlines]; rfl, hlast⟩
  | @gap l between rest hl _ hbetween _ ih =>
      obtain ⟨front, last, hlines, hlast⟩ := ih
      exact ⟨l :: between :: front, last,
        by rw [splitLines_line hl, splitLines_line hbetween, hlines]; rfl, hlast⟩

end Loose

/-! ### Texts that are laid out -/

/-- A text whose last line is firm, empty lines apart. If it is neat, all its lines are firm or
empty. -/
structure Laid (neat : Prop) (cs : List Char) : Prop where
  last : ∀ line ∈ ((splitLines cs).filter (· ≠ [])).getLast?, IsFirm line
  neat : neat → ∀ line ∈ splitLines cs, line ≠ [] → IsFirm line

lemma laid_of_firm (h : ∀ line ∈ splitLines a, line ≠ [] → IsFirm line) : Laid neat a where
  last line hlast := by
    obtain ⟨hmem, hne⟩ := List.mem_filter.mp (List.mem_of_getLast? hlast)
    exact h line hmem (by simpa using hne)
  neat _ := h

lemma Firm.laid (h : Firm a) : Laid neat a := laid_of_firm fun line hline _ => h.isFirm_of_mem line hline

lemma laid_breaks (n : ℕ) : Laid neat (List.replicate n '\n') := by
  refine laid_of_firm fun line hline hne => absurd ?_ hne
  induction n with
  | zero => exact List.mem_singleton.mp hline
  | succ n ih =>
      rcases List.mem_cons.mp hline with rfl | hrest
      · rfl
      · exact ih hrest

lemma Laid.append_break (ha : Laid neat a) (hb : Laid neat b) : Laid neat (a ++ '\n' :: b) where
  last line hlast := by
    rw [splitLines_append_break, List.filter_append, List.getLast?_append] at hlast
    cases hlines : ((splitLines b).filter (· ≠ [])).getLast? with
    | none =>
        rw [hlines] at hlast
        exact ha.last line hlast
    | some last =>
        rw [hlines] at hlast
        exact hb.last line (hlines ▸ hlast)
  neat hneat line hline := by
    rw [splitLines_append_break, List.mem_append] at hline
    rcases hline with hline | hline
    · exact ha.neat hneat line hline
    · exact hb.neat hneat line hline

/-- What is laid out behind a line, and when this line is firm. -/
lemma Laid.of_line (hl : '\n' ∉ line) (h : Laid neat (line ++ '\n' :: rest)) :
    Laid neat rest ∧ (neat → line ≠ [] → IsFirm line) ∧
      ((splitLines rest).filter (· ≠ []) = [] → line ≠ [] → IsFirm line) := by
  refine ⟨⟨fun last hlast => h.last last ?_, fun hneat last hlast => h.neat hneat last ?_⟩,
    fun hneat => h.neat hneat line ?_, fun hrest hne => h.last line ?_⟩
  · rw [splitLines_line hl, ← List.singleton_append, List.filter_append, List.getLast?_append]
    rw [Option.mem_def] at hlast ⊢
    rw [hlast]
    rfl
  · rw [splitLines_line hl]
    exact List.mem_cons_of_mem _ hlast
  · rw [splitLines_line hl]
    exact List.mem_cons_self
  · rw [splitLines_line hl, List.filter_cons_of_pos (by simpa using hne), hrest]
    rfl

/-! ### Lines in a row -/

/-- Lines among which no three in a row have nothing in them; `n` such lines stand in front. -/
def Sparse : ℕ → List (List Char) → Prop
  | _, [] => True
  | n, line :: rest => IsFirm line ∧ Sparse 0 rest ∨ n < 2 ∧ Sparse (n + 1) rest

instance decidableSparse : (n : ℕ) → (lines : List (List Char)) → Decidable (Sparse n lines)
  | _, [] => .isTrue trivial
  | n, line :: rest =>
      have := decidableSparse 0 rest
      have := decidableSparse (n + 1) rest
      inferInstanceAs (Decidable (IsFirm line ∧ Sparse 0 rest ∨ n < 2 ∧ Sparse (n + 1) rest))

lemma Loose.sparse (h : Loose neat a) (hneat : neat) {more : List (List Char)}
    (hmore : Sparse 0 more) (n : ℕ) : Sparse n (splitLines a ++ more) := by
  induction h generalizing n with
  | line hl hfirm =>
      rw [splitLines_of_not_mem hl]
      exact .inl ⟨hfirm, hmore⟩
  | next hl hfirm _ ih =>
      rw [splitLines_line hl]
      exact .inl ⟨hfirm hneat, ih 0⟩
  | gap hl hfirm hbetween _ ih =>
      rw [splitLines_line hl, splitLines_line hbetween]
      exact .inl ⟨hfirm hneat, .inr ⟨by decide, ih 1⟩⟩

/-- Of three lines in a row one has something in it. -/
lemma Sparse.isFirm_or {n : ℕ} {lines before after : List (List Char)} {x y z : List Char}
    (h : Sparse n lines) (hlines : lines = before ++ x :: y :: z :: after) :
    IsFirm x ∨ IsFirm y ∨ IsFirm z := by
  induction before generalizing n lines with
  | nil =>
      subst hlines
      rcases h with ⟨hx, -⟩ | ⟨-, h⟩
      · exact .inl hx
      rcases h with ⟨hy, -⟩ | ⟨-, h⟩
      · exact .inr (.inl hy)
      rcases h with ⟨hz, -⟩ | ⟨hn, -⟩
      · exact .inr (.inr hz)
      · omega
  | cons line before ih =>
      subst hlines
      rcases h with ⟨-, h⟩ | ⟨-, h⟩
      · exact ih h rfl
      · exact ih h rfl

/-- What is left of a line without its end does not end with a space or tab. -/
lemma getLast?_withoutEnd (line : List Char) :
    ∀ c ∈ (withoutEnd line).getLast?, c ≠ ' ' ∧ c ≠ '\t' := by
  induction line with
  | nil => exact nofun
  | cons d rest ih =>
      intro c hc
      rw [withoutEnd] at hc
      split at hc
      · cases hc
      · rename_i hend
        rw [List.getLast?_cons] at hc
        cases hlast : (withoutEnd rest).getLast? with
        | none =>
            rw [hlast] at hc
            obtain rfl := Option.some.inj hc
            exact not_or.mp fun hblank => hend ⟨hblank, List.getLast?_eq_none_iff.mp hlast⟩
        | some e =>
            rw [hlast] at hc
            obtain rfl := Option.some.inj hc
            exact ih _ hlast

end Text

namespace Program

open Text

variable {cs line : List Char} {neat : Prop} {run : ℕ}

lemma dropLastBreaks_of_not_mem (h : '\n' ∉ line) : dropLastBreaks line = line :=
  (congrArg _ (List.append_nil line).symm).trans
    ((dropLastBreaks_append_of_not_mem h []).trans (List.append_nil line))

/-- No line feeds stand in front of a line that is not empty. -/
lemma takeWhile_break (h : '\n' ∉ line) (hne : line ≠ []) (rest : List Char) :
    (line ++ rest).takeWhile (· = '\n') = [] := by
  obtain ⟨c, more, rfl⟩ := List.exists_cons_of_ne_nil hne
  rw [List.mem_cons, not_or] at h
  exact List.takeWhile_cons_of_neg (by simpa using Ne.symm h.1)

lemma head?_ne_break (h : '\n' ∉ line) (hne : line ≠ []) (rest : List Char) :
    (line ++ rest).head? ≠ some '\n' := by
  intro hhead
  rw [List.head?_append_of_ne_nil _ hne] at hhead
  exact h (List.mem_of_mem_head? hhead)

/-- All lines lose their ends, if the last one has none. -/
lemma splitLines_dropLineEnds {cs : List Char}
    (h : ∀ line ∈ (splitLines cs).getLast?, withoutEnd line = line) :
    splitLines (dropLineEnds cs) = (splitLines cs).map withoutEnd := by
  induction cs using lines_induction with
  | last line hl =>
      rw [splitLines_of_not_mem hl] at h
      rw [dropLineEnds_of_not_mem hl, splitLines_of_not_mem hl, List.map_singleton, h line rfl]
  | line line rest hl ih =>
      have hend : '\n' ∉ withoutEnd line := fun hmem => hl (mem_of_mem_withoutEnd hmem)
      rw [dropLineEnds_line hl, splitLines_line hend, splitLines_line hl, List.map_cons, ih]
      intro last hlast
      refine h last ?_
      rw [splitLines_line hl, List.getLast?_cons, Option.mem_def.mp hlast]
      rfl

/-- What is left of lines when their runs of line feeds are shortened, after `run` line feeds, and
those at the end are dropped: nothing, if all lines are empty, or a loose text, with up to two line
feeds in front. -/
def Squeezed (neat : Prop) (run : ℕ) (cs : List Char) : Prop :=
  dropLastBreaks (squeeze run cs) = [] ∧ (splitLines cs).filter (· ≠ []) = [] ∨
    ∃ mid, Loose neat mid ∧ mid.head? ≠ some '\n' ∧ dropLastBreaks (squeeze run cs) =
      List.replicate (min (2 - run) (cs.takeWhile (· = '\n')).length) '\n' ++ mid

/-- A line feed in front of something that is left stays. -/
lemma dropLastBreaks_break (h : dropLastBreaks cs ≠ []) :
    dropLastBreaks ('\n' :: cs) = '\n' :: dropLastBreaks cs := by
  rw [dropLastBreaks_cons, if_neg fun hand => h hand.2]

lemma squeezed_last (hl : '\n' ∉ line) (hne : line ≠ []) (hfirm : IsFirm line) (run : ℕ) :
    Squeezed neat run line := by
  have hsqueeze := squeeze_line hl hne run []
  rw [List.append_nil, squeeze, List.append_nil] at hsqueeze
  have hbreaks := takeWhile_break hl hne []
  rw [List.append_nil] at hbreaks
  refine .inr ⟨line, .line hl hfirm, fun hhead => hl (List.mem_of_mem_head? hhead), ?_⟩
  rw [hsqueeze, hbreaks, dropLastBreaks_of_not_mem hl, List.length_nil, Nat.min_zero]
  rfl

/-- After two line feeds one more is left out. -/
lemma squeezed_more (h : Squeezed neat 2 cs) : Squeezed neat 2 ('\n' :: cs) := by
  have hnone : ∀ n, min (2 - 2) n = 0 := fun n => Nat.zero_min n
  rw [Squeezed, hnone] at h
  rwa [Squeezed, hnone, squeeze, if_pos rfl, if_pos le_rfl, splitLines, if_pos rfl,
    List.filter_cons_of_neg (by decide)]

/-- Before that it stays, if anything is left behind it. -/
lemma squeezed_break (h : Squeezed neat (run + 1) cs) (hrun : run < 2) :
    Squeezed neat run ('\n' :: cs) := by
  rw [Squeezed, squeeze, if_pos rfl, if_neg (by omega), List.takeWhile_cons_of_pos (by decide),
    List.length_cons, splitLines, if_pos rfl, List.filter_cons_of_neg (by decide)]
  rcases h with ⟨hnil, hempty⟩ | ⟨mid, hmid, hhead, heq⟩
  · exact .inl ⟨by rw [dropLastBreaks_cons, if_pos ⟨rfl, hnil⟩], hempty⟩
  · have hcount : ∀ n, min (2 - run) (n + 1) = min (2 - (run + 1)) n + 1 := by omega
    have hsome : dropLastBreaks (squeeze (run + 1) cs) ≠ [] := by
      rw [heq]
      exact List.append_ne_nil_of_right_ne_nil _ hmid.ne_nil
    refine .inr ⟨mid, hmid, hhead, ?_⟩
    rw [dropLastBreaks_break hsome, heq, hcount]
    rfl

/-- A line that is not empty, in front of lines after its line feed. -/
lemma squeezed_line (h : Squeezed neat 1 cs) (hl : '\n' ∉ line) (hne : line ≠ [])
    (hneat : neat → IsFirm line) (hlast : (splitLines cs).filter (· ≠ []) = [] → IsFirm line)
    (run : ℕ) : Squeezed neat run (line ++ '\n' :: cs) := by
  have hsqueeze : squeeze run (line ++ '\n' :: cs) = line ++ '\n' :: squeeze 1 cs := by
    rw [squeeze_line hl hne, squeeze, if_pos rfl, if_neg (by omega)]
  rw [Squeezed, hsqueeze, dropLastBreaks_append_of_not_mem hl, takeWhile_break hl hne,
    List.length_nil, Nat.min_zero]
  rcases h with ⟨hnil, hempty⟩ | ⟨mid, hmid, -, heq⟩
  · refine .inr ⟨line, .line hl (hlast hempty), ?_, ?_⟩
    · have hline := head?_ne_break hl hne []
      rwa [List.append_nil] at hline
    · rw [dropLastBreaks_cons, if_pos ⟨rfl, hnil⟩, List.append_nil]
      rfl
  · have hsome : dropLastBreaks (squeeze 1 cs) ≠ [] := by
      rw [heq]
      exact List.append_ne_nil_of_right_ne_nil _ hmid.ne_nil
    rw [dropLastBreaks_break hsome, heq]
    -- one line feed at most is left between the line and what follows
    obtain hnone | hone : min (2 - 1) (cs.takeWhile (· = '\n')).length = 0 ∨
        min (2 - 1) (cs.takeWhile (· = '\n')).length = 1 := by omega
    · rw [hnone]
      exact .inr ⟨_, .next hl hneat hmid, head?_ne_break hl hne _, rfl⟩
    · rw [hone]
      exact .inr ⟨_, .gap hl hneat List.not_mem_nil hmid, head?_ne_break hl hne _, rfl⟩

/-- **Shortening runs of line feeds** and dropping those at the end leaves nothing, if there is
nothing else, or a loose text with up to two of them in front. -/
lemma dropLastBreaks_squeeze (h : Laid neat cs) (run : ℕ) (hrun : run ≤ 2) :
    Squeezed neat run cs := by
  -- by induction on the lines, from the last to the first
  induction cs using lines_induction generalizing run with
  | last line hl =>
      by_cases hne : line = []
      · subst hne
        exact .inl ⟨rfl, rfl⟩
      · refine squeezed_last hl hne (h.last line ?_) run
        rw [splitLines_of_not_mem hl, List.filter_cons_of_pos (by simpa using hne)]
        rfl
  | line line rest hl ih =>
      obtain ⟨hrest, hneat, hlast⟩ := h.of_line hl
      by_cases hne : line = []
      · subst hne
        rcases hrun.lt_or_eq with hfew | rfl
        · exact squeezed_break (ih hrest (run + 1) hfew) hfew
        · exact squeezed_more (ih hrest 2 hrun)
      · exact squeezed_line (ih hrest 1 (by omega)) hl hne (fun hall => hneat hall hne)
          (fun hempty => hlast hempty hne) run

end Program

end Blockscribe
