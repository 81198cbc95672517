/-
The layout of every program.

* `Program.gathered`: the definitions as they are put together, before their empty lines are
  collapsed. `dropLeadingLines_preamble` says what stands in front of an entry point afterwards:
  nothing, or a loose text and two empty lines.
* `LooseLines`: whole lines that are a loose text. The statements of a program are, and so is what
  stands inside its entry point (`looseLines_entryBody`).
* `Program.Canonical`: no line ends with a space or tab, the first line is not blank, two empty lines
  part the definitions from the entry point, and there are never three empty lines in a row.
* `Generator.generate_layout`: every program has this layout, but for the empty lines that come of
  comments.
-/
import Blockscribe.Proofs.Program.Openings
import Blockscribe.Proofs.Render.Solid

namespace Blockscribe

open Text (Firm Loose Laid Sparse)

variable {neat : Prop}

/-! ### Definitions -/

namespace Text

variable {cs : List Char} {sep : String} {texts : List String}

lemma laid_intercalate (hsep : ∀ {a b : List Char}, Laid neat a → Laid neat b →
      Laid neat (a ++ (sep.toList ++ b))) (h : ∀ text ∈ texts, Laid neat text.toList) :
    Laid neat (sep.intercalate texts).toList := by
  induction texts with
  | nil => exact laid_breaks 0
  | cons text rest ih =>
      rw [List.forall_mem_cons] at h
      cases rest with
      | nil => exact h.1
      | cons next rest =>
          rw [String.intercalate_cons_cons, String.toList_append, String.toList_append,
            List.append_assoc]
          exact hsep h.1 (ih h.2)

/-- An empty line between two texts. -/
lemma Laid.append_gap {a b : List Char} (ha : Laid neat a) (hb : Laid neat b) :
    Laid neat (a ++ '\n' :: '\n' :: b) :=
  ha.append_break (Laid.append_break (laid_breaks 0) hb)

lemma exists_intercalate_eq (sep text : String) (more : List String) :
    ∃ rest, (sep.intercalate (text :: more)).toList = text.toList ++ rest := by
  cases more with
  | nil => exact ⟨[], (List.append_nil _).symm⟩
  | cons next more =>
      rw [String.intercalate_cons_cons, String.toList_append, String.toList_append,
        List.append_assoc]
      exact ⟨_, rfl⟩

/-- What is put together to a blank text is blank. -/
lemma allBlank_of_intercalate (h : allBlank (sep.intercalate texts).toList = true) :
    ∀ text ∈ texts, allBlank text.toList = true := by
  induction texts with
  | nil => exact nofun
  | cons text rest ih =>
      cases rest with
      | nil => exact List.forall_mem_singleton.mpr h
      | cons next rest =>
          rw [String.intercalate_cons_cons, String.toList_append, String.toList_append,
            allBlank_append, allBlank_append, Bool.and_eq_true, Bool.and_eq_true] at h
          exact List.forall_mem_cons.mpr ⟨h.1.1, ih h.2⟩

/-- A text without lines that are not empty is blank. -/
lemma allBlank_of_filter_eq_nil (h : (splitLines cs).filter (· ≠ []) = []) :
    allBlank cs = true := by
  have hempty : ∀ line ∈ splitLines cs, line = [] := fun line hline => by
    by_contra hne
    exact nomatch h ▸ List.mem_filter.mpr ⟨hline, by simpa using hne⟩
  clear h
  induction cs using lines_induction with
  | last line hl =>
      rw [splitLines_of_not_mem hl] at hempty
      rw [hempty line List.mem_cons_self]
      rfl
  | line line rest hl ih =>
      rw [splitLines_line hl, List.forall_mem_cons] at hempty
      rw [hempty.1, List.nil_append, allBlank, List.all_cons]
      exact ih hempty.2

end Text

namespace Program

open Text

variable {d : Definitions} {c : Char}

/-- The definitions, put together. -/
def gathered (d : Definitions) : String :=
  "\n".intercalate (imports d) ++ "\n\n" ++ "\n\n".intercalate (routines d)

lemma toList_preamble (d : Definitions) :
    (preamble d).toList = collapseChars (gathered d).toList :=
  String.toList_ofList

lemma laid_gathered (h : ∀ e ∈ d.entries, Laid neat e.2.toList) :
    Laid neat (gathered d).toList := by
  have htexts : ∀ p : String → Bool, ∀ text ∈ (d.entries.map Prod.snd).filter p,
      Laid neat text.toList := by
    intro p text htext
    obtain ⟨e, he, rfl⟩ := List.mem_map.mp (List.mem_filter.mp htext).1
    exact h e he
  rw [gathered, String.toList_append, String.toList_append, List.append_assoc]
  exact (laid_intercalate Laid.append_break (htexts _)).append_gap
    (laid_intercalate Laid.append_gap (htexts _))

/-- The declarations of variables are laid out. -/
lemma laid_declarations {dialect : Dialect} (hdialect : dialect ∈ Dialect.all) {ids : List String}
    (h : ∀ id ∈ ids, isIdentifier id = true) :
    Laid neat ("\n".intercalate (ids.map dialect.declare)).toList := by
  refine laid_intercalate Laid.append_break fun text htext => ?_
  obtain ⟨id, hid, rfl⟩ := List.mem_map.mp htext
  obtain ⟨hflat, hfirm⟩ := firm_of_isIdentifier (h id hid)
  rw [Dialect.declare_eq hdialect, String.toList_append]
  exact (Firm.append_flat (.line hflat hfirm) (by decide)).laid

lemma allBlank_of_gathered (h : allBlank (gathered d).toList = true) :
    ∀ e ∈ d.entries, allBlank e.2.toList = true := by
  rw [gathered, String.toList_append, String.toList_append, allBlank_append, allBlank_append,
    Bool.and_eq_true, Bool.and_eq_true] at h
  intro e he
  rcases mem_imports_or_routines (List.mem_map_of_mem he) with ⟨himport, -⟩ | ⟨-, hroutine⟩
  · exact allBlank_of_intercalate h.1.1 _ himport
  · exact allBlank_of_intercalate h.2 _ hroutine

/-- The definitions begin with an import, or with at least two line feeds. -/
lemma breaks_gathered (d : Definitions) :
    ((gathered d).toList.takeWhile (· = '\n')).length ≠ 1 := by
  cases himports : imports d with
  | nil =>
      have hstart : (gathered d).toList =
          '\n' :: '\n' :: ("\n\n".intercalate (routines d)).toList := by
        rw [gathered, himports, String.toList_append, String.toList_append]
        rfl
      rw [hstart, List.takeWhile_cons_of_pos (by decide), List.takeWhile_cons_of_pos (by decide),
        List.length_cons, List.length_cons]
      omega
  | cons text more =>
      have hmem : text ∈ imports d := himports ▸ List.mem_cons_self
      obtain ⟨x, hx, hletter⟩ : ∃ x ∈ text.toList.head?, ¬ (x ≠ 'i' ∧ x ≠ 'f') := by
        by_contra hnone
        push Not at hnone
        have himport : isImport text = true := (List.mem_filter.mp hmem).2
        rw [isImport_of_head hnone] at himport
        exact nomatch himport
      have hne : x ≠ '\n' := by
        rintro rfl
        exact hletter (by decide)
      obtain ⟨tail, htail⟩ := List.head?_eq_some_iff.mp hx
      obtain ⟨rest, hrest⟩ := exists_intercalate_eq "\n" text more
      rw [gathered, himports, String.toList_append, String.toList_append, hrest, htail,
        List.cons_append, List.cons_append, List.cons_append,
        List.takeWhile_cons_of_neg (by simpa using hne)]
      exact Nat.zero_ne_one

/-- **What stands in front of an entry point**: nothing, if the definitions are blank, or a loose
text and two empty lines. -/
lemma dropLeadingLines_preamble (h : ∀ e ∈ d.entries, Laid neat e.2.toList)
    (hopen : Opening (preamble d).toList) (hc : isBlank c = false) (rest : List Char) :
    dropLeadingLines ((preamble d).toList ++ c :: rest) = c :: rest ∧
        (∀ e ∈ d.entries, allBlank e.2.toList = true) ∨
      ∃ mid, Loose neat mid ∧ (∀ x ∈ mid.head?, isBlank x = false) ∧
        dropLeadingLines ((preamble d).toList ++ c :: rest) =
          mid ++ '\n' :: '\n' :: '\n' :: c :: rest := by
  rw [toList_preamble, collapseChars] at *
  rcases dropLastBreaks_squeeze (laid_gathered h) 0 (Nat.zero_le 2) with
    ⟨hnil, hempty⟩ | ⟨mid, hmid, hhead, hmid_eq⟩
  · refine .inl ⟨?_, allBlank_of_gathered (allBlank_of_filter_eq_nil hempty)⟩
    rw [hnil]
    exact dropLeadingLines_breaks 3 hc
  · obtain ⟨x, more, rfl⟩ := List.exists_cons_of_ne_nil hmid.ne_nil
    have hx : isBlank x = false := by
      rw [hmid_eq, List.append_assoc, Opening, List.dropWhile_append_of_pos, List.cons_append,
        List.dropWhile_cons_of_neg] at hopen
      · exact hopen x rfl
      · simpa using hhead
      · intro y hy
        simpa using (List.mem_replicate.mp hy).2
    refine .inr ⟨x :: more, hmid, fun y hy => Option.some.inj hy ▸ hx, ?_⟩
    rw [hmid_eq, List.append_assoc, List.append_assoc, List.cons_append, dropLeadingLines_breaks _ hx]
    have hbreaks := breaks_gathered d
    split
    · simp
    · rename_i hfew
      have hnone : min (2 - 0) ((gathered d).toList.takeWhile (· = '\n')).length = 0 := by omega
      rw [hnone]
      simp

/-! ### Statements -/

/-- Whole lines that are a loose text. -/
def LooseLines (neat : Prop) (text : String) : Prop :=
  text = "" ∨ ∃ f : String, text = f ++ "\n" ∧ Loose neat f.toList

/-- Statements with empty lines between them. -/
lemma looseLines_intercalate {texts : List String} (h : ∀ text ∈ texts, FirmLines text)
    (hne : ∀ text ∈ texts, text ≠ "") : LooseLines neat ("\n".intercalate texts) := by
  induction texts with
  | nil => exact .inl rfl
  | cons text rest ih =>
      rw [List.forall_mem_cons] at h hne
      obtain ⟨f, rfl, hf⟩ := h.1.resolve_left hne.1
      cases rest with
      | nil => exact .inr ⟨f, rfl, hf.loose neat⟩
      | cons next rest =>
          have hsome : "\n".intercalate (next :: rest) ≠ "" := by
            obtain ⟨more, hmore⟩ := exists_intercalate_eq "\n" next rest
            rintro hempty
            rw [hempty] at hmore
            exact hne.2 next List.mem_cons_self
              (String.toList_eq_nil_iff.mp (List.append_eq_nil_iff.mp hmore.symm).1)
          obtain ⟨g, hg_eq, hg⟩ := (ih h.2 hne.2).resolve_left hsome
          refine .inr ⟨f ++ "\n" ++ "\n" ++ g, ?_, ?_⟩
          · rw [String.intercalate_cons_cons, hg_eq]
            simp only [String.append_assoc]
          · simp only [String.toList_append, List.append_assoc]
            exact (hf.loose neat).append_gap hg

variable {style : Style} {identifiers : List String} {body : String}

/-- The variables of a program are bound in one line. -/
lemma firmLines_bindingLine {dialect : Dialect} (hdialect : dialect ∈ Dialect.all)
    (h : ∀ id ∈ identifiers, isIdentifier id = true) :
    FirmLines (dialect.bindingLine identifiers) := by
  have hk : (Kin.solid True).Lawful "" "" := Kin.lawful_solid List.not_mem_nil
  have hparts : List.Forall₂ (Kin.solid True).part identifiers identifiers :=
    List.forall₂_same.mpr fun id hid => hk.part_name (h id hid)
  have hline := hk.expr_append_left (hk.expr_append_left
    (hk.expr_const (c := "global ") (by decide) (by decide))
    (hk.part_intercalate ", " (by decide) hparts)) (hk.part_const (c := "") List.not_mem_nil)
  simp only [Dialect.all, List.mem_cons, List.not_mem_nil, or_false] at hdialect
  rcases hdialect with rfl | rfl
  · exact .inl rfl
  · show FirmLines (if identifiers.isEmpty then "" else
      "global " ++ ", ".intercalate identifiers ++ "" ++ "\n")
    split
    · exact .inl rfl
    · exact (hk.lines_break hline).2

/-- What stands inside the entry point. -/
lemma looseLines_entryBody (hdialect : style.dialect ∈ Dialect.all)
    (hflat : '\n' ∉ style.indent.toList) (h : ∀ id ∈ identifiers, isIdentifier id = true)
    (hbody : LooseLines neat body) : LooseLines neat (entryBody style identifiers body) := by
  rw [entryBody]
  rcases hbody with rfl | ⟨g, rfl, hg⟩
  · rw [if_neg (not_not_intro rfl)]
    split
    · have hpass : Firm style.dialect.passKeyword.toList := by
        simp only [Dialect.all, List.mem_cons, List.not_mem_nil, or_false] at hdialect
        rcases hdialect with hdialect | hdialect <;> rw [hdialect] <;>
          exact .line (by decide) (by decide)
      refine .inr ⟨style.indent ++ style.dialect.passKeyword, rfl, ?_⟩
      rw [String.toList_append]
      exact (hpass.flat_append hflat).loose neat
    · exact .inl rfl
  · rw [if_pos (break_ne_empty g)]
    -- the line that binds the variables is led together with the statements
    have hled : ∀ f : String, Loose neat f.toList →
        LooseLines neat (leadLines style.indent (f ++ "\n")) := by
      intro f hf
      refine .inr ⟨_, leadLines_break style.indent f, ?_⟩
      rw [String.toList_ofList]
      exact hf.leadBreaks hflat
    rcases firmLines_bindingLine hdialect h with hnone | ⟨f, hf_eq, hf⟩
    · rw [hnone, String.empty_append]
      exact hled g hg
    · rw [hf_eq, ← String.append_assoc]
      refine hled _ ?_
      rw [toList_break]
      exact (hf.loose neat).append_break hg

end Program

/-! ### The entry point -/

namespace Dialect

open Text
open Program (dropTrailingLines)

variable {d : Dialect} {inner : String}

/-- The entry point around what stands inside it. -/
def entry (d : Dialect) (inner : String) : String := d.entryOpen ++ inner ++ d.entryClose

/-- How an entry point is closed. What closes it stays as it is when a program is tidied, and no three
lines of it in a row have nothing in them. -/
structure Closed (d : Dialect) : Prop where
  kept : dropTrailingLines d.entryClose.toList = d.entryClose.toList
  last : ∀ line ∈ (splitLines d.entryClose.toList).getLast?, withoutEnd line = line
  sparse : Sparse 0 (splitLines d.entryClose.toList)

lemma closed_of_mem_all (h : d ∈ all) : d.Closed := by
  simp only [all, List.mem_cons, List.not_mem_nil, or_false] at h
  rcases h with rfl | rfl <;> exact ⟨by decide +kernel, by decide +kernel, by decide +kernel⟩

lemma toList_entry (d : Dialect) (inner : String) :
    (d.entry inner).toList = d.entryOpen.toList ++ inner.toList ++ d.entryClose.toList := by
  rw [entry, String.toList_append, String.toList_append]

/-- What stands in front of an entry point makes no difference to its end. -/
lemma dropTrailingLines_entry (h : d ∈ all) (front : List Char) (inner : String) :
    dropTrailingLines (front ++ (d.entry inner).toList) = front ++ (d.entry inner).toList := by
  rw [toList_entry, ← List.append_assoc, Program.dropTrailingLines_append
    (framed_of_mem_all h).entryClose, (closed_of_mem_all h).kept]

/-- An entry point around loose lines is a loose text up to what closes it. -/
lemma exists_loose_entry (h : d ∈ all) (hinner : Program.LooseLines neat inner) :
    ∃ whole, Loose neat whole ∧ (d.entry inner).toList = whole ++ '\n' :: d.entryClose.toList := by
  obtain ⟨c, line, hopening, hc, hline⟩ := exists_entryOpen_eq h
  have hne : c ≠ ' ' ∧ c ≠ '\t' ∧ c ≠ '\n' := by
    refine ⟨?_, ?_, ?_⟩ <;> rintro rfl <;> exact absurd hc (by decide)
  have hfirst : Loose neat (c :: line) :=
    .line (List.not_mem_cons_of_ne_of_not_mem hne.2.2.symm hline)
      ⟨c, List.mem_cons_self, hne.1, hne.2.1⟩
  rw [toList_entry, hopening]
  rcases hinner with rfl | ⟨g, rfl, hg⟩
  · exact ⟨c :: line, hfirst, by simp⟩
  · exact ⟨c :: line ++ '\n' :: g.toList, hfirst.append_break hg, by simp⟩

/-- The first line of an entry point is the one that opens it. -/
lemma exists_splitLines_entry (h : d ∈ all) (inner : String) :
    ∃ opening after, splitLines (d.entry inner).toList = opening :: after ∧
      opening ++ ['\n'] = d.entryOpen.toList ∧ withoutEnd opening = opening := by
  obtain ⟨c, line, hopening, hc, hline⟩ := exists_entryOpen_eq h
  have hne : c ≠ '\n' := by
    rintro rfl
    exact absurd hc (by decide)
  have hflat : '\n' ∉ c :: line := List.not_mem_cons_of_ne_of_not_mem hne.symm hline
  have hkept : ∀ d ∈ all, ∀ line ∈ splitLines d.entryOpen.toList, withoutEnd line = line := by
    decide
  refine ⟨c :: line, splitLines (inner.toList ++ d.entryClose.toList), ?_, hopening.symm, ?_⟩
  · rw [toList_entry, hopening, List.append_assoc, List.append_assoc]
    exact splitLines_line hflat
  · refine hkept d h _ ?_
    rw [hopening, splitLines_line hflat]
    exact List.mem_cons_self

/-- Something visible stands at the start of an entry point. -/
lemma exists_entry_eq (h : d ∈ all) (inner : String) :
    ∃ c rest, (d.entry inner).toList = c :: rest ∧ isBlank c = false := by
  obtain ⟨c, line, hopening, hc, -⟩ := exists_entryOpen_eq h
  rw [toList_entry, hopening, List.append_assoc]
  exact ⟨c, _, rfl, hc⟩

/-- The last line of an entry point has no end to lose. -/
lemma withoutEnd_last_entry (h : d ∈ all) (hinner : Program.LooseLines neat inner)
    (front : List (List Char)) :
    ∀ line ∈ (front ++ splitLines (d.entry inner).toList).getLast?, withoutEnd line = line := by
  obtain ⟨whole, -, hchars⟩ := exists_loose_entry h hinner
  intro line hline
  refine (closed_of_mem_all h).last line ?_
  rwa [hchars, splitLines_append_break, ← List.append_assoc,
    List.getLast?_append_of_ne_nil _ (splitLines_ne_nil _)] at hline

/-- No three lines of an entry point in a row have nothing in them, nor with two such lines in front
of it. -/
lemma sparse_entry (h : d ∈ all) (hinner : Program.LooseLines neat inner) (hneat : neat) (n : ℕ) :
    Sparse n (splitLines (d.entry inner).toList) := by
  obtain ⟨whole, hwhole, hchars⟩ := exists_loose_entry h hinner
  rw [hchars, splitLines_append_break]
  exact hwhole.sparse hneat (closed_of_mem_all h).sparse n

end Dialect

/-! ### The program -/

namespace Program

open Text

variable {d : Definitions} {dialect : Dialect} {inner : String}

/-- The layout of a program with the given definitions and entry point: no line ends with a space or
tab, and the first line is not blank; if a definition is not blank, the entry point has exactly two
empty lines in front of the line that opens it; if comments are neat, there are never three empty
lines in a row. -/
structure Canonical (dialect : Dialect) (d : Definitions) (entry : String) (neat : Prop)
    (text : String) : Prop where
  ends : ∀ line ∈ splitLines text.toList, ∀ c ∈ line.getLast?, c ≠ ' ' ∧ c ≠ '\t'
  first : ∀ line ∈ (splitLines text.toList).head?, allBlank line = false
  parted : (∃ e ∈ d.entries, allBlank e.2.toList = false) → ∃ front line opening after,
    splitLines text.toList = front ++ line :: [] :: [] :: opening :: after ∧ line ≠ [] ∧
      opening ++ ['\n'] = dialect.entryOpen.toList ∧
      opening :: after = splitLines (dropLineEnds entry.toList)
  gaps : neat → ¬ [[], [], []] <:+: splitLines text.toList

/-- Of three lines in a row that are empty without their ends, none has something in it. -/
lemma not_infix_of_sparse {lines : List (List Char)} {n : ℕ} (h : Sparse n lines) :
    ¬ [[], [], []] <:+: lines.map withoutEnd := by
  rintro ⟨before, after, heq⟩
  obtain ⟨front, rest, rfl, hfront, -⟩ := List.map_eq_append_iff.mp heq.symm
  obtain ⟨lead, three, rfl, -, hthree⟩ := List.map_eq_append_iff.mp hfront
  obtain ⟨x, three, rfl, hx, hthree⟩ := List.map_eq_cons_iff.mp hthree
  obtain ⟨y, three, rfl, hy, hthree⟩ := List.map_eq_cons_iff.mp hthree
  obtain ⟨z, three, rfl, hz, hthree⟩ := List.map_eq_cons_iff.mp hthree
  obtain rfl := List.map_eq_nil_iff.mp hthree
  have hlines : lead ++ [x, y, z] ++ rest = lead ++ x :: y :: z :: rest := by simp
  rcases h.isFirm_or hlines with hfirm | hfirm | hfirm
  · exact hfirm.withoutEnd_ne_nil hx
  · exact hfirm.withoutEnd_ne_nil hy
  · exact hfirm.withoutEnd_ne_nil hz

/-- A text that begins with something visible keeps it in its first line. -/
lemma allBlank_head_splitLines {cs : List Char} (hne : cs ≠ [])
    (h : ∀ c ∈ cs.head?, isBlank c = false) :
    ∀ line ∈ (splitLines cs).head?, allBlank line = false := by
  obtain ⟨c, rest, rfl⟩ := List.exists_cons_of_ne_nil hne
  have hc : isBlank c = false := h c rfl
  have hflat : '\n' ∉ [c] := by
    rintro hmem
    obtain rfl := List.mem_singleton.mp hmem
    exact absurd hc (by decide)
  obtain ⟨line, more, -, hlines⟩ := exists_splitLines_append hflat rest
  intro first hfirst
  rw [← List.singleton_append, hlines] at hfirst
  obtain rfl := Option.some.inj hfirst
  rw [List.singleton_append, allBlank, List.all_cons, hc, Bool.false_and]

/-- The lines of a program are those that are left in front of the entry point and those of the entry
point, all without their ends. -/
lemma splitLines_tidy (hdialect : dialect ∈ Dialect.all) (hinner : LooseLines neat inner)
    {definitions : String} (front : List Char) (lines : List (List Char))
    (hfront : dropLeadingLines (definitions.toList ++ (dialect.entry inner).toList) =
      front ++ (dialect.entry inner).toList)
    (hlines : splitLines (front ++ (dialect.entry inner).toList) =
      lines ++ splitLines (dialect.entry inner).toList) :
    splitLines (tidy (definitions ++ dialect.entry inner)).toList =
      (splitLines (front ++ (dialect.entry inner).toList)).map withoutEnd := by
  rw [tidy, String.toList_ofList, tidyChars, String.toList_append, hfront,
    Dialect.dropTrailingLines_entry hdialect]
  exact splitLines_dropLineEnds (hlines ▸ Dialect.withoutEnd_last_entry hdialect hinner lines)

variable {text cs : List Char}

lemma ends_of_map (h : splitLines text = (splitLines cs).map withoutEnd) :
    ∀ line ∈ splitLines text, ∀ c ∈ line.getLast?, c ≠ ' ' ∧ c ≠ '\t' := by
  intro line hline
  obtain ⟨long, -, rfl⟩ := List.mem_map.mp (h ▸ hline)
  exact getLast?_withoutEnd long

lemma first_of_map (h : splitLines text = (splitLines cs).map withoutEnd) (hne : cs ≠ [])
    (hhead : ∀ c ∈ cs.head?, isBlank c = false) :
    ∀ line ∈ (splitLines text).head?, allBlank line = false := by
  intro line hline
  rw [h, List.head?_map, Option.mem_def, Option.map_eq_some_iff] at hline
  obtain ⟨long, hlong, rfl⟩ := hline
  rw [allBlank_withoutEnd]
  exact allBlank_head_splitLines hne hhead long hlong

/-- **The layout of a program**, if its definitions and its statements are laid out. -/
lemma canonical_tidy (hdialect : dialect ∈ Dialect.all)
    (hlaid : ∀ e ∈ d.entries, Laid neat e.2.toList) (hopen : Opening (preamble d).toList)
    (hinner : LooseLines neat inner) :
    Canonical dialect d (dialect.entry inner) neat (tidy (preamble d ++ dialect.entry inner)) := by
  have hsparse := Dialect.sparse_entry hdialect hinner
  obtain ⟨c, rest, hentry, hc⟩ := Dialect.exists_entry_eq hdialect inner
  have hdropped := dropLeadingLines_preamble hlaid hopen hc rest
  rw [← hentry] at hdropped
  rcases hdropped with ⟨hnone, hblank⟩ | ⟨mid, hmid, hhead, hfront⟩
  · -- nothing is left in front of the entry point
    have hlines := splitLines_tidy hdialect hinner [] [] hnone rfl
    rw [List.nil_append] at hlines
    refine ⟨ends_of_map hlines, first_of_map hlines ?_ ?_, ?_, fun hneat => ?_⟩
    · exact hentry ▸ List.cons_ne_nil _ _
    · rw [hentry]
      exact fun x hx => Option.some.inj hx ▸ hc
    · rintro ⟨e, he, hvisible⟩
      exact nomatch hvisible.symm.trans (hblank e he)
    · rw [hlines]
      exact not_infix_of_sparse (hsparse hneat 0)
  · have hparts : splitLines (mid ++ '\n' :: '\n' :: '\n' :: (dialect.entry inner).toList) =
        splitLines mid ++ [] :: [] :: splitLines (dialect.entry inner).toList := by
      rw [splitLines_append_break]
      rfl
    have hlines := splitLines_tidy hdialect hinner (mid ++ ['\n', '\n', '\n'])
      (splitLines mid ++ [[], []]) (by simpa using hfront) (by simpa using hparts)
    rw [List.append_assoc] at hlines
    have hall := hlines.trans (congrArg (List.map withoutEnd) hparts)
    refine ⟨ends_of_map hlines, first_of_map hlines ?_ ?_, fun _ => ?_, fun hneat => ?_⟩
    · exact List.append_ne_nil_of_left_ne_nil hmid.ne_nil _
    · rwa [List.head?_append_of_ne_nil _ hmid.ne_nil]
    · obtain ⟨before, last, hmid_lines, hfirm⟩ := hmid.exists_last
      obtain ⟨opening, after, hopened, hopening, hkept⟩ :=
        Dialect.exists_splitLines_entry hdialect inner
      refine ⟨before.map withoutEnd, withoutEnd last, opening, after.map withoutEnd, ?_,
        hfirm.withoutEnd_ne_nil, hopening, ?_⟩
      · rw [hall, hmid_lines, hopened, List.append_assoc, List.map_append, List.singleton_append,
          List.map_cons, List.map_cons, List.map_cons, List.map_cons, hkept]
        rfl
      · rw [splitLines_dropLineEnds (Dialect.withoutEnd_last_entry hdialect hinner []), hopened,
          List.map_cons, hkept]
    · rw [hall]
      refine not_infix_of_sparse (hmid.sparse hneat ?_ 0)
      exact .inr ⟨by decide, .inr ⟨by decide, hsparse hneat 2⟩⟩

end Program

namespace Generator

variable {style : Style} {w : Workspace} {text : String}

/-- **Every program has the canonical layout.** Let a program be generated with the standard
handlers, where no line feed is in the indent and no block that is rendered to an expression is
followed by another. Then no line of it ends with a space or tab, its first line is not blank, and if
any definition is not blank, exactly two empty lines stand in front of the line that opens the entry
point. There are never three empty lines in a row, unless a filled comment of a procedure has a line
that is made of spaces and tabs, for which it needs blanks that ASCII does not have. -/
theorem generate_layout (hdialect : style.dialect ∈ Dialect.all)
    (hflat : '\n' ∉ style.indent.toList)
    (hlast : ∀ b ∈ w.blocks, b.disabled = false → (Renderer.standard w style).RendersValue b →
      b.next = none)
    (h : ((standard style).generate w).1 = .ok text) :
    ∃ body t, (standard style).Makes w body t text ∧
      Program.Canonical style.dialect t.definitions (style.dialect.entry (Program.entryBody style
          (Run.variableIdentifiers style.dialect.reserved w.declared) body))
        (w.NeatComments style.commentWidth) text := by
  obtain ⟨body, t, hmakes⟩ := exists_makes h
  have hapt := Renderer.apt_solid hmakes.valid hdialect hflat hlast
  have hids : ∀ id ∈ Run.variableIdentifiers style.dialect.reserved w.declared,
      isIdentifier id = true := fun id hid =>
    (legal_variableIdentifiers (standard style) w id hid).1
  have hstart : ((standard style).start w).Akin (Kin.solid (w.NeatComments style.commentWidth))
      ((standard style).start w) := by
    refine ⟨rfl, rfl, ?_, ?_⟩
    · rw [definitions_start]
      exact nofun
    · rw [definitions_start]
      exact .cons ⟨rfl, rfl, Program.laid_declarations hdialect hids⟩ .nil
  obtain ⟨_, _, hrun', ⟨texts, texts', htexts, hne, hbody, -⟩, -, hstates⟩ :=
    hapt.shadows_renderTops _ _ (namesFrom_start (standard style) w) hstart _ _ hmakes.run_body
  obtain ⟨rfl, rfl⟩ := EStateM.Result.ok.inj (hmakes.run_body.symm.trans hrun')
  refine ⟨body, t, hmakes, ?_⟩
  rw [hmakes.text_eq]
  refine Program.canonical_tidy hdialect ?_ (Program.opening_preamble (hmakes.opens hdialect)) ?_
  · exact fun e he => (List.forall₂_same.mp hstates.entries e he).2.2
  · refine Program.looseLines_entryBody hdialect hflat hids ?_
    rw [hbody]
    have hboth : List.Forall₂ (fun text text' => FirmLines text ∧ text = text') texts texts' :=
      htexts.imp fun _ _ hlines => ⟨hlines.2, hlines.1⟩
    exact Program.looseLines_intercalate ((List.forall₂_and_left _ _).mp hboth).1 hne

/-- A procedure with two paragraphs of comment, and a list from which an item is taken. -/
def layoutSample : Workspace :=
  Workspace.edited ["n"]
    [.add ⟨"text_print", [], [], none, .null, false, []⟩,
      .add ⟨"procedures_defnoreturn", [("NAME", .text "f")], [⟨"STACK", .statement, some 1⟩], none,
        .text "Puts a line out.\n\nIt is empty.", false, []⟩,
      .add ⟨"lists_getIndex", [("MODE", .text "GET"), ("WHERE", .text "RANDOM")], [], none, .null,
        false, []⟩]

/-- The definitions, the comment and the entry point are parted by empty lines. -/
theorem generate_layout_layoutSample :
    ((standard .python).generate layoutSample).1.toOption = some ("import random\n\nn = None\n\n" ++
      "\"\"\"Puts a line out.\n\nIt is empty.\n\"\"\"\ndef f():\n  global n\n  print('')\n\n\n" ++
      "def main():\n  global n\n  random.choice([])\n\n\n" ++
      "if __name__ == \"__main__\":\n  main()\n") ∧
    layoutSample.NeatComments Style.python.commentWidth ∧
    ∃ text body t, ((standard .python).generate layoutSample).1 = .ok text ∧
      (standard .python).Makes layoutSample body t text ∧
      Program.Canonical .python t.definitions (Dialect.python.entry (Program.entryBody .python
          (Run.variableIdentifiers Dialect.python.reserved layoutSample.declared) body))
        (layoutSample.NeatComments Style.python.commentWidth) text := by
  obtain ⟨text, htext⟩ : ∃ text, ((standard .python).generate layoutSample).1 = .ok text :=
    exists_generate (by decide +kernel)
  have hlast : ∀ b ∈ layoutSample.blocks, b.next = none := by decide
  obtain ⟨body, t, hmakes, hlayout⟩ := generate_layout Dialect.python_mem_all (by decide)
    (fun b hb _ _ => hlast b hb) htext
  refine ⟨by decide +kernel, ?_, text, body, t, htext, hmakes, hlayout⟩
  refine Workspace.neatComments_of_plain (List.forall_mem_cons.mpr ⟨fun _ => nofun, ?_⟩) _
  refine List.forall_mem_cons.mpr ⟨fun _ text htext => ?_, List.forall_mem_cons.mpr ⟨fun _ => nofun, nofun⟩⟩
  obtain rfl := Value.text.inj htext
  decide

end Generator

end Blockscribe
