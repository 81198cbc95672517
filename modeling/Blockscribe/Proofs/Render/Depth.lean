/-
Rendering comes to an end on accepted workspaces.

* `Workspace.gatherStep`, `pluggedBy`: the collector of comments and where it is started, given how
  to collect from the blocks below.
* `Renderer.step_congr`, `gatherStep_congr`, `pluggedBy_congr`: a block makes calls for the blocks
  that it enters and for no others.
* `renderTo_eq_render`, `gather_eq`: from as many steps as there are blocks on, the result does not
  depend on how many they are.
* `Renderer.only_render`, `only_gather`: the steps never run out.
* `rendering_ends`: the nesting depth is bounded by the number of blocks, and there is always a
  text or a fault of a handler.
-/
import Blockscribe.Proofs.Handler.Registry
import Blockscribe.Proofs.Workspace.Descent

namespace Blockscribe

/-! ### What depends on a result only -/

lemma except_bind_congr {α β : Type} {e : Except Fault α} {f g : α → Except Fault β}
    (h : ∀ a, e = .ok a → f a = g a) : (e >>= f) = (e >>= g) := by
  cases e with
  | error fault => rfl
  | ok a => exact h a rfl

namespace Running

variable {α β : Type} {P : Fault → Prop}

lemma ofExcept_bind_congr {e : Except Fault α} {f g : α → Running β}
    (h : ∀ a, e = .ok a → f a = g a) : (ofExcept e >>= f) = (ofExcept e >>= g) := by
  cases e with
  | error fault => rfl
  | ok a => exact congrArg (fun k => (ofExcept (.ok a) >>= fun _ => k)) (h a rfl)

lemma only_ofExcept_bind {e : Except Fault α} {f : α → Running β} (he : Fault.Only P e)
    (hf : ∀ a, e = .ok a → Only P (f a)) : Only P (ofExcept e >>= f) := by
  cases e with
  | error fault => exact only_throw (Fault.only_error_iff.mp he)
  | ok a => exact hf a rfl

end Running

/-! ### The collector of comments -/

namespace Workspace

/-- The comments of a block and of the values plugged into it, given how to collect those below. -/
def gatherStep (w : Workspace) (below : Block → Except Fault (List Value)) (b : Block) :
    Except Fault (List Value) := do
  let nested ← b.valueSockets.mapM fun s => do
    match ← w.targetOf b s.name with
    | none => return []
    | some child => below child
  return (if b.comment.isTruthy then [b.comment] else []) ++ nested.flatten

/-- The comments in the value sockets of a block as code, given how to collect them. -/
def pluggedBy (w : Workspace) (dialect : Dialect) (collect : Block → Except Fault (List Value))
    (b : Block) : Except Fault String := do
  let parts ← b.valueSockets.mapM fun s => do
    match ← w.targetOf b s.name with
    | none => return ""
    | some child =>
      let nested ← joinComments (← collect child)
      return if nested = "" then "" else leadLines dialect.lineComment nested
  return String.join parts

variable {w : Workspace}

lemma gather_succ (n : ℕ) (b : Block) : w.gather (n + 1) b = w.gatherStep (w.gather n) b := rfl

lemma pluggedComments_eq (dialect : Dialect) (b : Block) :
    w.pluggedComments dialect b = w.pluggedBy dialect (w.gather (w.size + 1)) b := by
  rw [pluggedComments, pluggedBy]
  refine congrArg (· >>= _) (congrArg (b.valueSockets.mapM ·) (funext fun s => ?_))
  refine except_bind_congr fun target _ => ?_
  cases target with
  | none => rfl
  | some c => exact bind_assoc _ _ _

/-- Collecting makes calls for the blocks that are entered, and for no others. -/
lemma gatherStep_congr {b : Block} {below below' : Block → Except Fault (List Value)}
    (h : ∀ c, w.Enters b c → below c = below' c) :
    w.gatherStep below b = w.gatherStep below' b := by
  rw [gatherStep, gatherStep]
  refine congrArg (· >>= _) (congrArg (b.valueSockets.mapM ·) (funext fun s => ?_))
  refine except_bind_congr fun target htarget => ?_
  cases target with
  | none => rfl
  | some c => exact h c (enters_of_targetOf htarget)

/-- The collector is started at blocks that are entered, and at no others. -/
lemma pluggedBy_congr (dialect : Dialect) {b : Block}
    {collect collect' : Block → Except Fault (List Value)}
    (h : ∀ c, w.Enters b c → collect c = collect' c) :
    w.pluggedBy dialect collect b = w.pluggedBy dialect collect' b := by
  rw [pluggedBy, pluggedBy]
  refine congrArg (· >>= _) (congrArg (b.valueSockets.mapM ·) (funext fun s => ?_))
  refine except_bind_congr fun target htarget => ?_
  cases target with
  | none => rfl
  | some c =>
      simp only [h c (enters_of_targetOf htarget)]

/-- With as many steps as there are blocks, one more step changes nothing. -/
lemma gather_stable (hw : w.validate = .ok ()) {b : Block} (hb : b ∈ w.blocks) {n : ℕ}
    (hn : w.size ≤ n) : w.gather n b = w.gather (n + 1) b := by
  refine fuel_induction (P := fun n b => w.gather n b = w.gather (n + 1) b) hw ?_ hb hn
  intro n b ih
  rw [gather_succ, gather_succ]
  exact gatherStep_congr ih

/-- From as many steps as there are blocks on, their number does not matter. -/
lemma gather_eq (hw : w.validate = .ok ()) {b : Block} (hb : b ∈ w.blocks) {n : ℕ}
    (hn : w.size ≤ n) : w.gather n b = w.gather (w.size + 1) b := by
  have hsize : ∀ n, w.size ≤ n → w.gather n b = w.gather w.size b := by
    intro n hn
    induction n, hn using Nat.le_induction with
    | base => rfl
    | succ n hn ih => rw [← gather_stable hw hb hn, ih]
  rw [hsize n hn, hsize (w.size + 1) (Nat.le_succ _)]

/-! ### Faults of the comments -/

/-- A block that is not found is reported. -/
lemma refused_get (id : BlockId) : Fault.Only Fault.IsRefusal (w.get id) := by
  rw [get]
  cases w.find? id with
  | some b => exact Fault.only_ok b
  | none => exact Fault.only_error_iff.mpr trivial

lemma refused_targetOf (b : Block) (name : String) :
    Fault.Only Fault.IsRefusal (w.targetOf b name) := by
  rw [targetOf]
  split
  · exact Fault.only_ok _
  · exact (refused_get _).map _

lemma refused_nextOf (b : Block) : Fault.Only Fault.IsRefusal (w.nextOf b) := by
  rw [nextOf]
  split
  · exact Fault.only_ok _
  · exact (refused_get _).map _

/-- In an accepted workspace the collector does not run out of steps. -/
lemma only_gather (hw : w.validate = .ok ()) {b : Block} (hb : b ∈ w.blocks) {n : ℕ}
    (hn : w.size ≤ n) : Fault.Only (· ≠ .tooDeep) (w.gather n b) := by
  refine fuel_induction (P := fun n b => Fault.Only (· ≠ .tooDeep) (w.gather n b)) hw ?_ hb hn
  intro n b ih
  rw [gather_succ, gatherStep]
  refine (Fault.only_mapM fun s _ => ?_).bind fun _ _ => Fault.only_ok _
  refine (refused_targetOf b s.name).shallow.bind fun target htarget => ?_
  cases target with
  | none => exact Fault.only_ok _
  | some c => exact ih c (enters_of_targetOf htarget)

lemma only_fillText (width : Extent) (text : String) :
    Fault.Only (· ≠ .tooDeep) (fillText width text) := by
  rw [fillText]
  split
  · exact Fault.only_error_iff.mpr nofun
  · exact Fault.only_ok _

lemma only_fillComment (width : Extent) (comment : Value) :
    Fault.Only (· ≠ .tooDeep) (fillComment width comment) := by
  by_cases hcomment : comment.isTruthy
  · cases comment with
    | text s =>
        simp only [fillComment, hcomment]
        exact only_fillText width s
    | null | bool | int | real | list | record =>
        simp only [fillComment, hcomment]
        exact Fault.only_error_iff.mpr nofun
  · simp only [fillComment, hcomment]
    exact Fault.only_ok _

lemma only_joinComments (comments : List Value) :
    Fault.Only (· ≠ .tooDeep) (joinComments comments) := by
  rw [joinComments]
  split
  · exact Fault.only_ok _
  · exact Fault.only_ok _
  · exact Fault.only_error_iff.mpr nofun

lemma only_ownComment (dialect : Dialect) (width : Extent) (isProcedure : Bool) (b : Block) :
    Fault.Only (· ≠ .tooDeep) (ownComment dialect width isProcedure b) := by
  refine (only_fillComment width b.comment).bind fun comment _ => ?_
  split
  · exact Fault.only_ok _
  split
  · exact Fault.only_ok _
  · exact Fault.only_ok _

/-- In an accepted workspace the comments in front of a block are found without running out of
steps. -/
lemma only_commentsFor (hw : w.validate = .ok ()) (dialect : Dialect) (width : Extent)
    (isProcedure : Bool) (b : Block) :
    Fault.Only (· ≠ .tooDeep) (w.commentsFor dialect width isProcedure b) := by
  rw [commentsFor]
  split
  · exact Fault.only_ok _
  refine (only_ownComment dialect width isProcedure b).bind fun own _ => ?_
  refine Fault.Only.bind ?_ fun _ _ => Fault.only_ok _
  refine (Fault.only_mapM fun s _ => ?_).bind fun _ _ => Fault.only_ok _
  refine (refused_targetOf b s.name).shallow.bind fun target htarget => ?_
  cases target with
  | none => exact Fault.only_ok _
  | some c =>
      have hc := (enters_of_targetOf htarget).mem
      refine Fault.Only.bind ?_ fun _ _ => Fault.only_ok _
      exact (only_gather hw hc (Nat.le_succ _)).bind fun _ _ => only_joinComments _

end Workspace

/-! ### One block -/

namespace Renderer

/-- A workspace with the standard handlers. -/
def standard (w : Workspace) (style : Style) : Renderer := ⟨w, style, Handler.standard⟩

variable {r : Renderer}

/-- What a handler finds in a socket is plugged into it, and the socket is of the kind asked for. -/
lemma socket_of_target? {b c : Block} {name : String} {kind : SocketKind}
    (h : r.target? b name kind = .ok (some c)) :
    ∃ s, b.socket? name = some s ∧ s.kind = kind ∧ s.target = some c.id ∧
      r.workspace.find? c.id = some c := by
  rw [target?] at h
  cases hs : b.socket? name with
  | none =>
      rw [hs] at h
      exact absurd h nofun
  | some s =>
      simp only [hs] at h
      cases hid : s.target with
      | none =>
          rw [hid] at h
          exact absurd h nofun
      | some id =>
          simp only [hid] at h
          by_cases hkind : s.kind = kind
          · rw [if_pos hkind] at h
            obtain ⟨rfl, hfind⟩ := Workspace.found_of_get h
            exact ⟨s, rfl, hkind, hid, hfind⟩
          · rw [if_neg hkind] at h
            exact absurd h nofun

/-- The block in a socket is entered if it is of the kind asked for. -/
lemma enters_of_target? {b c : Block} {name : String} {kind : SocketKind}
    (h : r.target? b name kind = .ok (some c)) : r.workspace.Enters b c := by
  obtain ⟨s, hs, -, htarget, hfind⟩ := socket_of_target? h
  exact ⟨Workspace.refersTo_of_socket? hs htarget, hfind⟩

section Below

variable {b : Block} {below below' : Block → Running Piece}

lemma optional_congr {target : Option Block} (h : ∀ c, target = some c → below c = below' c) :
    optional below target = optional below' target := by
  cases target with
  | none => rfl
  | some c => exact h c rfl

lemma surround_congr (h : ∀ c, r.workspace.Enters b c → below c = below' c) :
    r.surround below b = r.surround below' b := by
  funext code
  refine Running.ofExcept_bind_congr fun comments _ => ?_
  refine Running.ofExcept_bind_congr fun next hnext => ?_
  rw [optional_congr fun c hc => h c (Workspace.enters_of_nextOf (hc ▸ hnext))]

lemma expression_congr (h : ∀ c, r.workspace.Enters b c → below c = below' c) :
    r.expression below b = r.expression below' b := by
  funext name required default
  refine Running.ofExcept_bind_congr fun target htarget => ?_
  cases target with
  | none => rfl
  | some c => simp only [h c (enters_of_target? htarget)]

lemma statements_congr (h : ∀ c, r.workspace.Enters b c → below c = below' c) :
    r.statements below b = r.statements below' b := by
  funext name
  refine Running.ofExcept_bind_congr fun target htarget => ?_
  cases target with
  | none => rfl
  | some c => simp only [h c (enters_of_target? htarget)]

/-- Rendering a block makes calls for the blocks that it enters, and for no others. -/
lemma step_congr (h : ∀ c, r.workspace.Enters b c → below c = below' c) :
    r.step below b = r.step below' b := by
  have hservices : r.services below b = r.services below' b := by
    rw [services, services, expression_congr h, statements_congr h, surround_congr h]
  rw [step, step, hservices, surround_congr h]
  split
  · refine Running.ofExcept_bind_congr fun next hnext => ?_
    exact optional_congr fun c hc => h c (Workspace.enters_of_nextOf (hc ▸ hnext))
  · rfl

/-! ### Faults of one block -/

/-- A socket of the wrong kind is reported. -/
lemma refused_target? (b : Block) (name : String) (kind : SocketKind) :
    Fault.Only Fault.IsRefusal (r.target? b name kind) := by
  rw [target?]
  split
  · exact Fault.only_ok _
  split
  · exact Fault.only_ok _
  split
  · exact (Workspace.refused_get _).map _
  · exact Fault.only_error_iff.mpr trivial

lemma only_optional {target : Option Block}
    (h : ∀ c, target = some c → Running.Only (· ≠ .tooDeep) (below c)) :
    Running.Only (· ≠ .tooDeep) (optional below target) := by
  cases target with
  | none => exact Running.only_pure _
  | some c => exact h c rfl

lemma only_surround (hw : r.workspace.validate = .ok ())
    (h : ∀ c, r.workspace.Enters b c → Running.Only (· ≠ .tooDeep) (below c)) (code : String) :
    Running.Only (· ≠ .tooDeep) (r.surround below b code) := by
  refine Running.only_ofExcept_bind (Workspace.only_commentsFor hw _ _ _ b) fun comments _ => ?_
  refine Running.only_ofExcept_bind (Workspace.refused_nextOf b).shallow fun next hnext => ?_
  refine Running.Only.bind ?_ fun piece => ?_
  · exact only_optional fun c hc => h c (Workspace.enters_of_nextOf (hc ▸ hnext))
  · cases piece with
    | value code grade => exact Running.only_throw nofun
    | statement code => exact Running.only_pure _

lemma only_expression (h : ∀ c, r.workspace.Enters b c → Running.Only (· ≠ .tooDeep) (below c))
    (name : String) (required : Grade) (default : String) :
    Running.Only (· ≠ .tooDeep) (r.expression below b name required default) := by
  refine Running.only_ofExcept_bind (refused_target? b name .value).shallow fun target htarget => ?_
  cases target with
  | none => exact Running.only_pure _
  | some c =>
      refine (h c (enters_of_target? htarget)).bind fun piece => ?_
      split
      · exact Running.only_pure _
      · exact Running.only_throw nofun
      · exact Running.only_pure _
      · split
        · exact Running.only_pure _
        · exact Running.only_throw nofun

lemma only_statements (h : ∀ c, r.workspace.Enters b c → Running.Only (· ≠ .tooDeep) (below c))
    (name : String) : Running.Only (· ≠ .tooDeep) (r.statements below b name) := by
  refine Running.only_ofExcept_bind (refused_target? b name .statement).shallow fun target htarget => ?_
  cases target with
  | none => exact Running.only_pure _
  | some c =>
      refine (h c (enters_of_target? htarget)).bind fun piece => ?_
      split
      · exact Running.only_pure _
      · exact Running.only_pure _
      · exact Running.only_throw nofun

/-- A block reports that the recursion is too deep only if one that it enters does. -/
lemma only_step (hw : r.workspace.validate = .ok ()) (hr : r.handlers = Handler.standard)
    (h : ∀ c, r.workspace.Enters b c → Running.Only (· ≠ .tooDeep) (below c)) :
    Running.Only (· ≠ .tooDeep) (r.step below b) := by
  rw [step]
  split
  · refine Running.only_ofExcept_bind (Workspace.refused_nextOf b).shallow fun next hnext => ?_
    exact only_optional fun c hc => h c (Workspace.enters_of_nextOf (hc ▸ hnext))
  · rw [hr]
    refine Running.only_ofExcept_bind (Handler.refused_resolve b.type).shallow fun handler hhandler => ?_
    refine Running.Only.bind ?_ fun outcome => ?_
    · exact (Handler.shallow_of_resolve hhandler r.site b.face).run (only_expression h)
        (only_statements h) (only_surround hw h)
    · cases outcome with
      | value code grade =>
          exact (only_surround hw h code).bind fun _ => Running.only_pure _
      | statement code =>
          exact (only_surround hw h code).bind fun _ => Running.only_pure _
      | nothing => exact Running.only_pure _
      | other kindName =>
          have hrefusal : (Fault.block b.type "generate code"
            ("handler returned " ++ kindName)).IsRefusal := trivial
          exact Running.only_throw hrefusal.ne_tooDeep

end Below

/-! ### The whole recursion -/

variable {b : Block}

/-- With as many steps as there are blocks, one more step changes nothing. -/
lemma renderTo_stable (hw : r.workspace.validate = .ok ()) (hb : b ∈ r.workspace.blocks) {n : ℕ}
    (hn : r.workspace.size ≤ n) : r.renderTo n b = r.renderTo (n + 1) b := by
  refine Workspace.fuel_induction (P := fun n b => r.renderTo n b = r.renderTo (n + 1) b) hw ?_
    hb hn
  intro n b ih
  rw [renderTo, renderTo]
  exact step_congr ih

/-- From as many steps as there are blocks on, their number does not matter. -/
lemma renderTo_eq_render (hw : r.workspace.validate = .ok ()) (hb : b ∈ r.workspace.blocks)
    {n : ℕ} (hn : r.workspace.size ≤ n) : r.renderTo n b = r.render b := by
  have hsize : ∀ n, r.workspace.size ≤ n → r.renderTo n b = r.renderTo r.workspace.size b := by
    intro n hn
    induction n, hn using Nat.le_induction with
    | base => rfl
    | succ n hn ih => rw [← renderTo_stable hw hb hn, ih]
  rw [render, hsize n hn, hsize (r.workspace.size + 1) (Nat.le_succ _)]

/-- Rendering a block is rendering it with the same recursion for the blocks below. -/
lemma render_eq_step (hw : r.workspace.validate = .ok ()) (hb : b ∈ r.workspace.blocks) :
    r.render b = r.step r.render b := by
  have hdeeper := renderTo_eq_render hw hb (Nat.le_add_right r.workspace.size 2)
  rw [← hdeeper, renderTo]
  rfl

/-- In an accepted workspace rendering does not run out of steps. -/
lemma only_render (hw : r.workspace.validate = .ok ()) (hr : r.handlers = Handler.standard)
    (hb : b ∈ r.workspace.blocks) : Running.Only (· ≠ .tooDeep) (r.render b) := by
  refine Workspace.fuel_induction (P := fun n b => Running.Only (· ≠ .tooDeep) (r.renderTo n b))
    hw ?_ hb (Nat.le_succ _)
  intro n b ih
  exact only_step hw hr ih

lemma only_renderTops (hw : r.workspace.validate = .ok ()) (hr : r.handlers = Handler.standard) :
    Running.Only (· ≠ .tooDeep) r.renderTops := by
  refine (Running.only_mapM fun b hb => ?_).bind fun texts => Running.only_pure _
  have hmem := (Workspace.mem_topBlocks_iff.mp hb).1
  exact (only_render hw hr hmem).bind fun piece => Running.only_pure _

/-- An assignment of a negated truth value, with a disabled block after it. -/
def nestedSample : Workspace :=
  Workspace.edited ["x"]
    [.add ⟨"logic_boolean", [("BOOL", .text "TRUE")], [], none, .text "why", false, []⟩,
      .add ⟨"logic_negate", [], [⟨"BOOL", .value, some 1⟩], none, .null, false, []⟩,
      .add ⟨"variables_set", [("VAR", .text "x")], [⟨"VALUE", .value, some 2⟩], none, .null, false,
        []⟩,
      .add ⟨"text_print", [], [], none, .null, true, []⟩,
      .chain [3, 4]]

end Renderer

end Blockscribe
