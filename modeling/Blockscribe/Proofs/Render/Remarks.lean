/-
Comments in front of code can always be written, and hold no code.

* `Value.IsRemark`: a text, or nothing that counts as a comment.
* `Fault.Gives`: a computation that gives a result with a given property. It is kept when one
  computation follows another.
* `gives_gather`, `gives_commentsFor`: in an accepted workspace whose comments are texts, the
  comments in front of a block are found, whatever they say.
-/
import Blockscribe.Proofs.Render.Comments
import Blockscribe.Proofs.Render.Depth
import Blockscribe.Proofs.Workspace.Mirror

namespace Blockscribe

/-- Whatever counts as a comment is a text. -/
def Value.IsRemark (v : Value) : Prop := v.isTruthy = true → ∃ text, v = .text text

/-! ### Computations that give a result -/

namespace Fault

variable {α β : Type} {P : α → Prop} {Q : β → Prop}

/-- The computation gives a result, and the result has the property. -/
def Gives (P : α → Prop) (e : Except Fault α) : Prop := ∃ a, e = .ok a ∧ P a

lemma gives_ok {a : α} (h : P a) : Gives P (.ok a) := ⟨a, rfl, h⟩

lemma Gives.bind {e : Except Fault α} {f : α → Except Fault β} (he : Gives P e)
    (hf : ∀ a, e = .ok a → P a → Gives Q (f a)) : Gives Q (e >>= f) := by
  obtain ⟨a, rfl, ha⟩ := he
  exact hf a rfl ha

lemma gives_mapM {ι : Type} {f : ι → Except Fault α} {l : List ι} (hf : ∀ i ∈ l, Gives P (f i)) :
    Gives (fun as => ∀ a ∈ as, P a) (l.mapM f) := by
  induction l with
  | nil => exact gives_ok fun a ha => absurd ha List.not_mem_nil
  | cons i rest ih =>
      rw [List.mapM_cons]
      refine (hf i List.mem_cons_self).bind fun a _ ha => ?_
      refine (ih fun j hj => hf j (List.mem_cons_of_mem i hj)).bind fun as _ has => ?_
      exact gives_ok (List.forall_mem_cons.mpr ⟨ha, has⟩)

end Fault

namespace Workspace

open Fault (gives_ok gives_mapM)

variable {w : Workspace} {b : Block}

/-! ### The comments of blocks -/

lemma gives_fillText {width : Extent} (h : width.isUsable = true) (text : String) :
    Fault.Gives (fun _ => True) (fillText width text) := by
  rw [fillText, h]
  exact gives_ok trivial

lemma gives_fillComment {width : Extent} (h : width.isUsable = true) {comment : Value}
    (hcomment : comment.IsRemark) : Fault.Gives (fun _ => True) (fillComment width comment) := by
  cases htruthy : comment.isTruthy with
  | false =>
      simp only [fillComment, htruthy]
      exact gives_ok trivial
  | true =>
      obtain ⟨text, rfl⟩ := hcomment htruthy
      simp only [fillComment, htruthy]
      exact gives_fillText h text

/-- Texts can be put together. -/
lemma gives_joinComments {values : List Value} (h : ∀ v ∈ values, ∃ text, v = .text text) :
    Fault.Gives (fun _ => True) (joinComments values) := by
  have htexts : ∃ texts, values.mapM Value.asText? = some texts := by
    induction values with
    | nil => exact ⟨[], rfl⟩
    | cons v rest ih =>
        rw [List.forall_mem_cons] at h
        obtain ⟨⟨text, rfl⟩, hrest⟩ := h
        obtain ⟨texts, htexts⟩ := ih hrest
        refine ⟨text :: texts, ?_⟩
        rw [List.mapM_cons, htexts]
        rfl
  obtain ⟨texts, htexts⟩ := htexts
  rw [joinComments, htexts]
  cases texts <;> exact gives_ok trivial

lemma gives_ownComment {width : Extent} (h : width.isUsable = true) (hb : b.comment.IsRemark)
    (dialect : Dialect) (isProcedure : Bool) :
    Fault.Gives (fun _ => True) (ownComment dialect width isProcedure b) := by
  refine (gives_fillComment h hb).bind fun comment _ _ => ?_
  split
  · exact gives_ok trivial
  split
  · exact gives_ok trivial
  · exact gives_ok trivial

/-! ### The comments of values -/

/-- What is plugged into a socket is found. -/
lemma WellFormed.gives_targetOf (hw : w.WellFormed) (hb : b ∈ w.blocks) (name : String) :
    Fault.Gives (fun _ => True) (w.targetOf b name) := by
  cases hs : b.socket? name with
  | none => exact ⟨none, by rw [targetOf, hs]; rfl, trivial⟩
  | some s => exact ⟨_, hw.targetOf_eq hb hs, trivial⟩

/-- The comments of a block and of the values plugged into it are found, and are texts. -/
lemma gives_gather (hw : w.WellFormed) (hvalid : w.validate = .ok ())
    (htexts : ∀ b ∈ w.blocks, b.comment.IsRemark) (hb : b ∈ w.blocks) {n : ℕ} (hn : w.size ≤ n) :
    Fault.Gives (fun values => ∀ v ∈ values, ∃ text, v = .text text) (w.gather n b) := by
  refine fuel_induction (P := fun n b => b ∈ w.blocks →
    Fault.Gives (fun values => ∀ v ∈ values, ∃ text, v = .text text) (w.gather n b))
    hvalid ?_ hb hn hb
  intro n b ih hb
  rw [gather_succ, gatherStep]
  refine (gives_mapM (P := fun values => ∀ v ∈ values, ∃ text, v = .text text) ?_).bind ?_
  · intro s _
    refine (hw.gives_targetOf hb s.name).bind fun target htarget _ => ?_
    cases target with
    | none => exact gives_ok fun v hv => absurd hv List.not_mem_nil
    | some c => exact ih c (enters_of_targetOf htarget) (enters_of_targetOf htarget).mem
  · intro nested _ hnested
    refine gives_ok fun v hv => ?_
    rcases List.mem_append.mp hv with hown | hbelow
    · split at hown
      · rename_i htruthy
        obtain rfl := List.mem_singleton.mp hown
        exact htexts b hb htruthy
      · exact absurd hown List.not_mem_nil
    · obtain ⟨values, hvalues, hv⟩ := List.mem_flatten.mp hbelow
      exact hnested values hvalues v hv

lemma gives_pluggedComments (hw : w.WellFormed) (hvalid : w.validate = .ok ())
    (htexts : ∀ b ∈ w.blocks, b.comment.IsRemark) (hb : b ∈ w.blocks) (dialect : Dialect) :
    Fault.Gives (fun _ => True) (w.pluggedComments dialect b) := by
  refine (gives_mapM (P := fun _ => True) fun s _ => ?_).bind fun _ _ _ => gives_ok trivial
  refine (hw.gives_targetOf hb s.name).bind fun target htarget _ => ?_
  cases target with
  | none => exact gives_ok trivial
  | some c =>
      have hmem := (enters_of_targetOf htarget).mem
      have hnested : Fault.Gives (fun _ => True) (w.nestedComments c) :=
        (gives_gather hw hvalid htexts hmem (Nat.le_succ _)).bind fun _ _ hvalues =>
          gives_joinComments hvalues
      exact hnested.bind fun _ _ _ => gives_ok trivial

/-- **Comments can always be written.** In an accepted workspace whose comments are texts, with room
for comments, the comments in front of a block are found, and there are none in front of a block that
is plugged into a value socket. -/
lemma gives_commentsFor (hw : w.WellFormed) (hvalid : w.validate = .ok ())
    (htexts : ∀ b ∈ w.blocks, b.comment.IsRemark) (hb : b ∈ w.blocks) {width : Extent}
    (hwidth : width.isUsable = true) (dialect : Dialect) (isProcedure : Bool) :
    Fault.Gives (fun comments => w.isInline b.id = true → comments = "")
      (w.commentsFor dialect width isProcedure b) := by
  rw [commentsFor]
  split
  · exact gives_ok fun _ => rfl
  · rename_i hinline
    refine (gives_ownComment hwidth (htexts b hb) dialect isProcedure).bind fun _ _ _ => ?_
    refine (gives_pluggedComments hw hvalid htexts hb dialect).bind fun _ _ _ => ?_
    exact gives_ok fun h => absurd h hinline

/-- They hold no code in front of a block that defines no procedure. -/
lemma gives_remarks (hw : w.WellFormed) (hvalid : w.validate = .ok ())
    (htexts : ∀ b ∈ w.blocks, b.comment.IsRemark) (hb : b ∈ w.blocks) {width : Extent}
    (hwidth : width.isUsable = true) {dialect : Dialect} (hsign : dialect.lineComment = "# ") :
    Fault.Gives (fun comments => Remark comments ∧ (w.isInline b.id = true → comments = ""))
      (w.commentsFor dialect width false b) := by
  have hremark : OfLines dialect.lineComment Remark :=
    hsign ▸ ⟨remark_empty, Remark.append, remark_leadLines⟩
  obtain ⟨comments, hok, hinline⟩ := gives_commentsFor hw hvalid htexts hb hwidth dialect false
  exact ⟨comments, hok, ofLines_commentsFor hremark hok, hinline⟩

end Workspace

end Blockscribe
