/-
What the text of a helper routine is made of.

* `Text.Cuts`: the pieces of a text between the occurrences of a mark. A mark whose first character
  does not come again in it cuts a text in one way (`Cuts.unique`), and replacing the mark puts
  something else between the pieces (`exists_cuts`).
* `Text.Releads`: the spaces at the start of a line changed to units of indentation, two for one.
  `releads_reindentLine` says that this is what becomes of a line.
* `Definitions.provide_text`: so the text that is stored for a helper routine is its lines with the
  identifier at every mark and with other units at the start of every line. Where the unit is the
  one in which helpers are written, this changes nothing.
-/
import Blockscribe.Proofs.Run.Definitions

namespace Blockscribe

namespace Text

variable {a c cs mark piece : List Char} {pieces pieces' : List (List Char)} {p : Char}

/-! ### Cutting at a mark -/

/-- `pieces` are what stands between the occurrences of `mark` in a text. -/
structure Cuts (mark cs : List Char) (pieces : List (List Char)) : Prop where
  ne_nil : pieces ≠ []
  joined : mark.intercalate pieces = cs
  free : ∀ piece ∈ pieces, ¬ mark <:+: piece

lemma intercalate_cons (h : pieces ≠ []) (sep piece : List Char) :
    sep.intercalate (piece :: pieces) = piece ++ (sep ++ sep.intercalate pieces) := by
  obtain ⟨next, more, rfl⟩ := List.exists_cons_of_ne_nil h
  rw [List.intercalate_cons_cons, List.append_assoc]

lemma intercalate_longer (d : Char) (sep piece : List Char) (more : List (List Char)) :
    sep.intercalate ((d :: piece) :: more) = d :: sep.intercalate (piece :: more) := by
  by_cases h : more = []
  · rw [h, List.intercalate_singleton, List.intercalate_singleton]
  · rw [intercalate_cons h, intercalate_cons h, List.cons_append]

lemma prefix_intercalate (sep piece : List Char) (more : List (List Char)) :
    piece <+: sep.intercalate (piece :: more) := by
  by_cases h : more = []
  · exact ⟨[], by rw [h, List.intercalate_singleton, List.append_nil]⟩
  · rw [intercalate_cons h]
    exact List.prefix_append _ _

lemma cuts_nil (hne : mark ≠ []) : Cuts mark [] [[]] where
  ne_nil := List.cons_ne_nil _ _
  joined := List.intercalate_singleton
  free := List.forall_mem_singleton.mpr fun h => hne (List.infix_nil.mp h)

/-- In front of a mark at the start of a text there is an empty piece. -/
lemma Cuts.mark_append (hne : mark ≠ []) (h : Cuts mark cs pieces) :
    Cuts mark (mark ++ cs) ([] :: pieces) where
  ne_nil := List.cons_ne_nil _ _
  joined := by rw [intercalate_cons h.ne_nil, h.joined, List.nil_append]
  free := List.forall_mem_cons.mpr ⟨fun h => hne (List.infix_nil.mp h), h.free⟩

/-- A character at which no mark begins belongs to the first piece. -/
lemma Cuts.cons {d : Char} (h : Cuts mark cs (piece :: pieces)) (hd : ¬ mark <+: d :: cs) :
    Cuts mark (d :: cs) ((d :: piece) :: pieces) where
  ne_nil := List.cons_ne_nil _ _
  joined := by rw [intercalate_longer, h.joined]
  free := by
    obtain ⟨hfirst, hmore⟩ := List.forall_mem_cons.mp h.free
    refine List.forall_mem_cons.mpr ⟨fun hinfix => ?_, hmore⟩
    refine (List.infix_cons_iff.mp hinfix).elim (fun hprefix => hd ?_) hfirst
    rw [← h.joined, ← intercalate_longer]
    exact hprefix.trans (prefix_intercalate _ _ _)

/-- Replacing a mark puts something else between the pieces. -/
lemma exists_cuts (hne : mark ≠ []) (replacement cs : List Char) :
    ∃ pieces, Cuts mark cs pieces ∧
      replaceAll mark replacement cs = replacement.intercalate pieces := by
  rw [replaceAll]
  induction hlength : cs.length using Nat.strongRecOn generalizing cs with
  | ind n ih =>
      cases cs with
      | nil => exact ⟨[[]], cuts_nil hne, rfl⟩
      | cons d rest =>
          by_cases hmark : mark <+: d :: rest
          · obtain ⟨tail, htail⟩ := hmark
            have hshort : tail.length < n := by
              rw [← hlength, ← htail, List.length_append]
              exact Nat.lt_add_of_pos_left (List.length_pos_iff.mpr hne)
            obtain ⟨pieces, hcuts, hreplaced⟩ := ih _ hshort tail rfl
            refine ⟨[] :: pieces, htail ▸ hcuts.mark_append hne, ?_⟩
            rw [← htail, replaceFrom_pattern hne, hreplaced, intercalate_cons hcuts.ne_nil,
              List.nil_append]
          · obtain ⟨pieces, hcuts, hreplaced⟩ := ih _ (hlength ▸ Nat.lt_succ_self _) rest rfl
            obtain ⟨first, more, rfl⟩ := List.exists_cons_of_ne_nil hcuts.ne_nil
            have hskip : mark.isPrefixOf (d :: rest) = false :=
              Bool.eq_false_iff.mpr fun h => hmark (List.isPrefixOf_iff_prefix.mp h)
            refine ⟨(d :: first) :: more, hcuts.cons hmark, ?_⟩
            rw [replaceFrom, hskip, if_neg Bool.false_ne_true, hreplaced, intercalate_longer]

/-- Where a mark begins within another text and its own occurrence does not, the mark is found in
the other text: two occurrences do not overlap. -/
lemma infix_of_append_eq {x y : List Char} (hmark : mark.head? = some p) (hp : p ∉ mark.tail)
    (hne : c ≠ []) (h : mark ++ x = c ++ (mark ++ y)) : mark <:+: c := by
  obtain ⟨tail, rfl⟩ : ∃ tail, mark = p :: tail := List.head?_eq_some_iff.mp hmark
  rcases List.append_eq_append_iff.mp h with ⟨rest, rfl, -⟩ | ⟨rest, hoverlap, hrest⟩
  · exact (List.prefix_append _ _).isInfix
  · obtain ⟨d, more, rfl⟩ := List.exists_cons_of_ne_nil hne
    rw [List.cons_append, List.cons.injEq] at hoverlap
    cases rest with
    | nil =>
        rw [List.append_nil] at hoverlap
        obtain ⟨rfl, rfl⟩ := hoverlap
        exact List.infix_rfl
    | cons e others =>
        rw [List.cons_append, List.cons_append, List.cons.injEq] at hrest
        refine absurd ?_ hp
        rw [List.tail_cons, hoverlap.2, hrest.1]
        exact List.mem_append_right _ List.mem_cons_self

/-- No piece goes on behind the place where a mark begins. -/
lemma eq_nil_of_append_eq {x y : List Char} (hmark : mark.head? = some p) (hp : p ∉ mark.tail)
    (hfree : ¬ mark <:+: a ++ c) (h : mark ++ x = c ++ (mark ++ y)) : c = [] := by
  by_contra hne
  exact hfree ((infix_of_append_eq hmark hp hne h).trans (List.suffix_append a c).isInfix)

/-- A mark whose first character does not come again in it cuts a text in one way. -/
lemma Cuts.unique (hmark : mark.head? = some p) (hp : p ∉ mark.tail) (h : Cuts mark cs pieces)
    (h' : Cuts mark cs pieces') : pieces' = pieces := by
  have hinfix : ∀ (x y : List Char), mark <:+: x ++ (mark ++ y) := fun x y =>
    ⟨x, y, List.append_assoc _ _ _⟩
  induction pieces generalizing cs pieces' with
  | nil => exact absurd rfl h.ne_nil
  | cons first more ih =>
      obtain ⟨hfirst, hmore⟩ := List.forall_mem_cons.mp h.free
      obtain ⟨first', more', rfl⟩ := List.exists_cons_of_ne_nil h'.ne_nil
      obtain ⟨hfirst', hmore'⟩ := List.forall_mem_cons.mp h'.free
      have heq := h'.joined.trans h.joined.symm
      by_cases hlast : more = []
      · by_cases hlast' : more' = []
        · rw [hlast, hlast', List.intercalate_singleton, List.intercalate_singleton] at heq
          rw [hlast, hlast', heq]
        · rw [hlast, List.intercalate_singleton, intercalate_cons hlast'] at heq
          exact absurd (heq ▸ hinfix _ _) hfirst
      · by_cases hlast' : more' = []
        · rw [hlast', List.intercalate_singleton, intercalate_cons hlast] at heq
          exact absurd (heq ▸ hinfix _ _) hfirst'
        · rw [intercalate_cons hlast, intercalate_cons hlast'] at heq
          obtain rfl : first' = first := by
            rcases List.append_eq_append_iff.mp heq with ⟨c, rfl, hc⟩ | ⟨c, rfl, hc⟩
            · rw [eq_nil_of_append_eq hmark hp hfirst hc, List.append_nil]
            · rw [eq_nil_of_append_eq hmark hp hfirst' hc, List.append_nil]
          have hrest := List.append_cancel_left (List.append_cancel_left heq)
          rw [ih ⟨hlast, rfl, hmore⟩ ⟨hlast', hrest, hmore'⟩]

/-! ### Leading spaces -/

/-- `line'` is `line` with units of indentation in place of the spaces at its start: as many as
there are pairs of spaces, and the odd space behind them if there is one. -/
def Releads (unit line line' : List Char) : Prop :=
  ∃ k odd rest, odd ≤ 1 ∧ rest.head? ≠ some ' ' ∧
    line = List.replicate (2 * k + odd) ' ' ++ rest ∧
    line' = (List.replicate k unit).flatten ++ (List.replicate odd ' ' ++ rest)

lemma releads_reindentLine (unit line : List Char) :
    Releads unit line (reindentLine unit line) := by
  fun_induction reindentLine unit line with
  | case1 rest ih =>
      obtain ⟨k, odd, tail, hodd, htail, hline, hline'⟩ := ih
      refine ⟨k + 1, odd, tail, hodd, htail, ?_, ?_⟩
      · have hcount : 2 * (k + 1) + odd = 2 * k + odd + 1 + 1 := by omega
        rw [hcount, List.replicate_succ, List.replicate_succ, hline]
        rfl
      · rw [hline', List.replicate_succ, List.flatten_cons, List.append_assoc]
  | case2 line hpair =>
      cases line with
      | nil =>
          exact ⟨0, 0, [], Nat.zero_le 1, fun hspace => Option.some_ne_none _ hspace.symm, rfl, rfl⟩
      | cons d rest =>
          by_cases hd : d = ' '
          · subst hd
            refine ⟨0, 1, rest, Nat.le_refl 1, fun hspace => ?_, rfl, rfl⟩
            obtain ⟨tail, rfl⟩ := List.head?_eq_some_iff.mp hspace
            exact hpair tail rfl
          · refine ⟨0, 0, d :: rest, Nat.zero_le 1, fun hspace => hd ?_, rfl, rfl⟩
            exact Option.some.inj hspace

end Text

/-! ### Helper routines -/

namespace Definitions

open Text

/-- **A helper routine is stored as it is written, under its own name and in the indentation of the
program.** For every table of identifiers, the text under a key that is requested for the first time
comes from the lines put together: the identifier that is issued stands at every place of the mark,
and at the start of every line a unit of indentation for every two spaces. All else is as it was;
where the unit is two spaces, the text is the lines with the identifier. -/
theorem provide_text {d : Definitions} {key : String} (hnew : d.helper? key = none)
    (names : NameTable) (indent : String) (lines : List String) :
    ∃ text pieces, (d.provide names indent key lines).2.2.1.get? key = some text ∧
      Cuts ownName.toList (joinLines (lines.map String.toList)) pieces ∧
      (∀ other, Cuts ownName.toList (joinLines (lines.map String.toList)) other → other = pieces) ∧
      (∃ led, List.Forall₂ (Releads indent.toList)
          (splitLines ((d.provide names indent key lines).1.toList.intercalate pieces)) led ∧
        text.toList = joinLines led) ∧
      (indent = writtenIndent →
        text.toList = (d.provide names indent key lines).1.toList.intercalate pieces) := by
  have hmark : ownName.toList ≠ [] := by decide
  obtain ⟨pieces, hcuts, hnamed⟩ := exists_cuts hmark (names.choose key).toList
    (joinLines (lines.map String.toList))
  rw [provide_eq_of_new hnew]
  refine ⟨helperText indent (names.choose key) lines, pieces, ?_, hcuts,
    fun other hother => hcuts.unique (p := '\x7b') rfl (by decide) hother, ?_, fun hindent => ?_⟩
  · rw [get?_put, if_pos rfl]
  · refine ⟨_, List.forall₂_map_right_iff.mpr (List.forall₂_same.mpr fun line _ =>
      releads_reindentLine indent.toList line), ?_⟩
    rw [helperText_eq, String.toList_ofList, namedText, hnamed, reindent]
  · rw [helperText, if_pos hindent, String.toList_ofList, namedText, hnamed]

/-- A routine that calls itself, with an odd space in one of its lines and a line feed in another.
-/
def walkSample : List String :=
  ["def " ++ ownName ++ "(x):", "   if x:\n    " ++ ownName ++ "(x[1:])", "  "]

/-- What a first request for it does where its name is reserved and the unit of indentation is a
tab. -/
def walkRequest : String × NameTable × Definitions × Bool :=
  empty.provide (NameTable.empty ["walk"]) "\t" "walk" walkSample

theorem provide_text_walkSample :
    empty.helper? "walk" = none ∧ walkRequest.1 = "walk2" ∧
    walkRequest.2.2.1.get? "walk" =
      some "def walk2(x):\n\t if x:\n\t\twalk2(x[1:])\n\t" ∧
    ∃ pieces, Cuts ownName.toList (joinLines (walkSample.map String.toList)) pieces ∧
      ∃ led, List.Forall₂ (Releads ['\t']) (splitLines ("walk2".toList.intercalate pieces)) led ∧
        "def walk2(x):\n\t if x:\n\t\twalk2(x[1:])\n\t".toList = joinLines led := by
  have hnew : empty.helper? "walk" = none := rfl
  have hname : walkRequest.1 = "walk2" := by decide
  have hstored : walkRequest.2.2.1.get? "walk" =
      some "def walk2(x):\n\t if x:\n\t\twalk2(x[1:])\n\t" := by decide
  obtain ⟨text, pieces, htext, hcuts, -, ⟨led, hled, hjoined⟩, -⟩ :=
    provide_text hnew (NameTable.empty ["walk"]) "\t" walkSample
  rw [← walkRequest, hname] at hled
  obtain rfl := Option.some.inj (hstored.symm.trans htext)
  exact ⟨hnew, hname, hstored, pieces, hcuts, led, hled, hjoined⟩

end Definitions

end Blockscribe
