/-
Blocks that have the same place are rendered alike.

* `Renderer.Mirrors`: two renderers of one style whose blocks mirror each other.
* `Mirrors.target?_value`, `Mirrors.target?_statement`: what handlers find in the sockets of related
  blocks.
* `Mirrors.refines_optional`: what is found under related links is rendered alike if related blocks
  are; disabled blocks on the way make no difference.
* `Mirrors.refines_expression`, `Mirrors.refines_statements`, `Mirrors.refines_surround`: the services
  for related blocks are alike, if what is rendered below is related.
* `Mirrors.refines_step`, `Mirrors.refines_outcome`: so related blocks are rendered alike, if their
  handlers make related outcomes, and these become related pieces.
* `Mirrors.commentsFor_eq`, `Mirrors.refines_render`: with the same comments, related blocks are
  rendered to the same code.
-/
import Blockscribe.Proofs.Render.Outcome
import Blockscribe.Proofs.Run.Refine
import Blockscribe.Proofs.Workspace.Mirror

namespace Blockscribe

open Relation (TransGen)

lemma mapM_congr {m : Type → Type} [Monad m] [LawfulMonad m] {α β : Type} {f g : α → m β}
    {l : List α} (h : ∀ a ∈ l, f a = g a) : l.mapM f = l.mapM g := by
  induction l with
  | nil => rfl
  | cons a rest ih =>
      rw [List.mapM_cons, List.mapM_cons, h a List.mem_cons_self,
        ih fun x hx => h x (List.mem_cons_of_mem a hx)]

namespace Workspace

variable {w : Workspace}

/-- The comments of a block come before those of what is plugged into it. -/
lemma collected_eq_step (hvalid : w.validate = .ok ()) (b : Block) :
    w.collected b = (b.valueSockets.mapM fun s => w.targetOf b s.name >>= w.collectedIn) >>=
      fun nested => pure ((if b.comment.isTruthy then [b.comment] else []) ++ nested.flatten) := by
  have hstep : w.collected b = w.gatherStep w.collected b := by
    rw [collected, gather_succ]
    exact gatherStep_congr fun c hc => gather_stable hvalid hc.mem le_rfl
  rw [hstep, gatherStep]
  refine congrArg (· >>= _) (congrArg (b.valueSockets.mapM ·) (funext fun s => ?_))
  refine congrArg (w.targetOf b s.name >>= ·) (funext fun target => ?_)
  cases target <;> rfl

/-- The comments in each value socket of a block are written one after the other. -/
lemma pluggedComments_eq_collected (dialect : Dialect) (b : Block) :
    w.pluggedComments dialect b =
      (b.valueSockets.mapM fun s => w.targetOf b s.name >>= fun target => w.collectedIn target >>=
        fun values => joinComments values >>= fun nested =>
          pure (if nested = "" then "" else leadLines dialect.lineComment nested)) >>=
        fun parts => pure (String.join parts) := by
  rw [pluggedComments]
  refine congrArg (· >>= _) (congrArg (b.valueSockets.mapM ·) (funext fun s => ?_))
  refine congrArg (w.targetOf b s.name >>= ·) (funext fun target => ?_)
  cases target with
  | none => rfl
  | some c => exact bind_assoc _ _ _

end Workspace

namespace Renderer

/-- Two renderers of one style whose blocks mirror each other. -/
structure Mirrors (r r' : Renderer) (M : Block → Block → Prop) : Prop where
  style : r'.style = r.style
  handlers : r'.handlers = r.handlers
  declared : r'.workspace.declared = r.workspace.declared
  formed : r.workspace.WellFormed
  formed' : r'.workspace.WellFormed
  valid : r.workspace.validate = .ok ()
  valid' : r'.workspace.validate = .ok ()
  blocks : r.workspace.Mirrors r'.workspace M

/-! ### One renderer -/

section One

variable {r : Renderer} {b : Block}

/-- A disabled block is rendered to what follows after it. -/
lemma render_of_disabled (hw : r.workspace.WellFormed) (hvalid : r.workspace.validate = .ok ())
    (hb : b ∈ r.workspace.blocks) (hdisabled : b.disabled = true) :
    r.render b = optional r.render (r.workspace.led b.next) := by
  rw [render_eq_step hvalid hb, step, if_pos hdisabled, hw.nextOf_eq hb]
  rfl

/-- A disabled block that nothing follows is rendered to no statements. -/
lemma render_of_idle (hw : r.workspace.WellFormed) (hvalid : r.workspace.validate = .ok ())
    (hb : r.workspace.Idle b) : r.render b = pure (.statement "") := by
  rw [render_of_disabled hw hvalid hb.mem hb.disabled, hb.last]
  rfl

/-- A socket of the kind that is asked for is found. -/
lemma target?_of_kind (hw : r.workspace.WellFormed) (hb : b ∈ r.workspace.blocks) {name : String}
    {s : Socket} (hs : b.socket? name = some s) :
    r.target? b name s.kind = .ok (r.workspace.led s.target) := by
  rw [target?, hs]
  cases htarget : s.target with
  | none => simp only [htarget]; rfl
  | some id =>
      simp only [htarget, if_true]
      exact hw.get_eq hb (Workspace.refersTo_of_socket? hs htarget)

/-- A socket of another kind is answered only if it is empty. -/
lemma target?_of_other {name : String} {s : Socket} {kind : SocketKind} {t : Option Block}
    (hs : b.socket? name = some s) (hkind : s.kind ≠ kind) (h : r.target? b name kind = .ok t) :
    s.target = none ∧ t = none := by
  rw [target?, hs] at h
  cases htarget : s.target with
  | none =>
      simp only [htarget] at h
      exact ⟨rfl, (Except.ok.inj h).symm⟩
  | some id =>
      simp only [htarget, if_neg hkind] at h
      cases h

lemma target?_of_empty {name : String} {s : Socket} {kind : SocketKind}
    (hs : b.socket? name = some s) (hempty : s.target = none) :
    r.target? b name kind = .ok none := by
  rw [target?, hs]
  simp only [hempty]

end One

namespace Mirrors

variable {r r' : Renderer} {M : Block → Block → Prop} {b b' : Block} {reserved : List String}

lemma site_eq (h : r.Mirrors r' M) : r'.site = r.site := by
  rw [site, site, h.style, h.declared]

/-- What a handler finds in the sockets of one name is nothing, or what is plugged into sockets that
have the same place. -/
lemma target?_eq_ok (h : r.Mirrors r' M) (hb : M b b') {name : String} {kind : SocketKind}
    {t : Option Block} (ht : r.target? b name kind = .ok t) :
    ∃ t', r'.target? b' name kind = .ok t' ∧ (t = none ∧ t' = none ∨
      ∃ s s', r.workspace.MirrorsSocket r'.workspace M s s' ∧ s.kind = kind ∧
        t = r.workspace.led s.target ∧ t' = r'.workspace.led s'.target) := by
  obtain ⟨hmem, hmem'⟩ := h.blocks.mem hb
  have hrel := h.blocks.socket? hb name
  cases hs : b.socket? name with
  | none =>
      rw [hs] at hrel
      rw [target?, hs] at ht
      have hs' : b'.socket? name = none := by
        cases hs' : b'.socket? name with
        | none => rfl
        | some s' =>
            rw [hs'] at hrel
            cases hrel
      exact ⟨none, by rw [target?, hs'], Or.inl ⟨(Except.ok.inj ht).symm, rfl⟩⟩
  | some s =>
      rw [hs] at hrel
      obtain ⟨s', hs', hsocket⟩ : ∃ s', b'.socket? name = some s' ∧
          r.workspace.MirrorsSocket r'.workspace M s s' := by
        cases hs' : b'.socket? name with
        | none =>
            rw [hs'] at hrel
            cases hrel
        | some s' =>
            rw [hs'] at hrel
            cases hrel with
            | some hsocket => exact ⟨s', rfl, hsocket⟩
      by_cases hkind : s.kind = kind
      · subst hkind
        rw [target?_of_kind h.formed hmem hs] at ht
        refine ⟨_, hsocket.kind ▸ target?_of_kind h.formed' hmem' hs', Or.inr ?_⟩
        exact ⟨s, s', hsocket, rfl, (Except.ok.inj ht).symm, rfl⟩
      · obtain ⟨hempty, rfl⟩ := target?_of_other hs hkind ht
        have hempty' : s'.target = none := by
          cases htarget : s'.target with
          | none => rfl
          | some id =>
              obtain ⟨c, hc, -⟩ := h.formed'.led_eq_some hmem'
                (Workspace.refersTo_of_socket? hs' htarget)
              cases (htarget ▸ hc).symm.trans (hsocket.led_eq_none hempty)
        exact ⟨none, target?_of_empty hs' hempty', Or.inl ⟨rfl, rfl⟩⟩

/-- What handlers find in value sockets is related, or disabled. -/
lemma target?_value (h : r.Mirrors r' M) (hb : M b b') {name : String} {t : Option Block}
    (ht : r.target? b name .value = .ok t) :
    ∃ t', r'.target? b' name .value = .ok t' ∧ r.workspace.Plugged r'.workspace M t t' := by
  obtain ⟨t', ht', hempty | ⟨s, s', hsocket, hkind, rfl, rfl⟩⟩ := h.target?_eq_ok hb ht
  · obtain ⟨rfl, rfl⟩ := hempty
    exact ⟨none, ht', .nothing⟩
  · exact ⟨_, ht', hsocket.value hkind⟩

/-- What handlers find in statement sockets is related, past disabled blocks. -/
lemma target?_statement (h : r.Mirrors r' M) (hb : M b b') {name : String} {t : Option Block}
    (ht : r.target? b name .statement = .ok t) :
    ∃ t', r'.target? b' name .statement = .ok t' ∧ r.workspace.Leads r'.workspace M t t' := by
  obtain ⟨t', ht', hempty | ⟨s, s', hsocket, hkind, rfl, rfl⟩⟩ := h.target?_eq_ok hb ht
  · obtain ⟨rfl, rfl⟩ := hempty
    exact ⟨none, ht', .nowhere⟩
  · exact ⟨_, ht', hsocket.statement hkind⟩

/-- Disabled blocks on the way make no difference to what is rendered. `x` is the handle of a block
above all of them. -/
lemma refines_optional (h : r.Mirrors r' M) {Q : Piece → Piece → Prop} {x : BlockId}
    (hnothing : Q (.statement "") (.statement ""))
    (hbelow : ∀ c c', M c c' → TransGen r.workspace.Refers x c.id →
      Running.Refines reserved Q (r.render c) (r'.render c')) {t t' : Option Block}
    (ht : ∀ c, t = some c → TransGen r.workspace.Refers x c.id)
    (hleads : r.workspace.Leads r'.workspace M t t') :
    Running.Refines reserved Q (optional r.render t) (optional r'.render t') := by
  have hnext : ∀ d ∈ r.workspace.blocks, TransGen r.workspace.Refers x d.id →
      ∀ c, r.workspace.led d.next = some c → TransGen r.workspace.Refers x c.id := by
    intro d hd hx c hc
    obtain ⟨id, hid, hfind⟩ := Option.bind_eq_some_iff.mp hc
    obtain rfl := (Workspace.find?_eq_some hfind).2
    exact hx.tail ⟨d, hd, rfl, Or.inr hid⟩
  induction hleads with
  | nowhere => exact Running.refines_pure hnothing
  | here hM => exact hbelow _ _ hM (ht _ rfl)
  | @past d t' hd hdisabled _ ih =>
      have hrender := render_of_disabled h.formed h.valid hd hdisabled
      rw [optional, hrender]
      exact ih (hnext d hd (ht d rfl))
  | @pastBoth d d' hd hdisabled hd' hdisabled' _ ih =>
      have hrender := render_of_disabled h.formed h.valid hd hdisabled
      have hrender' := render_of_disabled h.formed' h.valid' hd' hdisabled'
      rw [optional, optional, hrender, hrender']
      exact ih (hnext d hd (ht d rfl))

/-! ### Comments -/

section Comments

variable (hnames : ∀ b ∈ r.workspace.blocks, (b.sockets.map Socket.name).Nodup)
  (hcomment : ∀ b b', M b b' → b'.comment = b.comment)

include hnames

/-- What stands in value sockets of one place is related, or disabled. -/
lemma targetOf_eq (h : r.Mirrors r' M) (hb : M b b') :
    ∃ g : Socket → Socket, b'.valueSockets = b.valueSockets.map g ∧ ∀ s ∈ b.valueSockets,
      ∃ t t', r.workspace.targetOf b s.name = .ok t ∧
        r'.workspace.targetOf b' (g s).name = .ok t' ∧
        r.workspace.Plugged r'.workspace M t t' := by
  obtain ⟨hmem, hmem'⟩ := h.blocks.mem hb
  have hface : b'.sockets.map Socket.name = b.sockets.map Socket.name :=
    congrArg Face.sockets (h.blocks.face hb)
  have hnodup' : (b'.sockets.map Socket.name).Nodup := by
    rw [hface]
    exact hnames b hmem
  obtain ⟨g, hg, hsockets⟩ := h.blocks.valueSockets hb
  refine ⟨g, hg, fun s hs => ?_⟩
  obtain ⟨hsocket, hsocket', -, hplugged⟩ := hsockets s hs
  refine ⟨_, _, ?_, ?_, hplugged⟩
  · exact h.formed.targetOf_eq hmem (Workspace.socket?_eq_some (hnames b hmem) hsocket)
  · exact h.formed'.targetOf_eq hmem' (Workspace.socket?_eq_some hnodup' hsocket')

include hcomment

/-- The same comments are collected from related blocks. -/
lemma collected_eq (h : r.Mirrors r' M) : ∀ b b', M b b' →
    r'.workspace.collected b' = r.workspace.collected b := by
  have hall : ∀ b ∈ r.workspace.blocks, ∀ b', M b b' →
      r'.workspace.collected b' = r.workspace.collected b := by
    refine Workspace.induction_below h.formed h.valid fun b hmem ih b' hb => ?_
    obtain ⟨g, hg, htargets⟩ := h.targetOf_eq hnames hb
    rw [Workspace.collected_eq_step h.valid, Workspace.collected_eq_step h.valid', hcomment b b' hb,
      hg, List.mapM_map]
    refine congrArg (· >>= _) (mapM_congr fun s hs => ?_)
    obtain ⟨t, t', ht, ht', hplugged⟩ := htargets s hs
    rw [Function.comp_apply, ht, ht']
    show r'.workspace.collectedIn t' = r.workspace.collectedIn t
    cases hplugged with
    | nothing => rfl
    | @here c c' hM =>
        refine ih c (h.blocks.mem hM).1 (.single ⟨b, hmem, rfl, ?_⟩) c' hM
        exact (Workspace.enters_of_targetOf ht).1
    | idle _ _ hsame => exact hsame
  exact fun b b' hb => hall b (h.blocks.mem hb).1 b' hb

/-- The same comments stand in front of related blocks. -/
lemma commentsFor_eq (h : r.Mirrors r' M) (hb : M b b') : r'.commentsFor b' = r.commentsFor b := by
  have hplugged : r'.workspace.pluggedComments r.style.dialect b' =
      r.workspace.pluggedComments r.style.dialect b := by
    obtain ⟨g, hg, htargets⟩ := h.targetOf_eq hnames hb
    rw [Workspace.pluggedComments_eq_collected, Workspace.pluggedComments_eq_collected, hg,
      List.mapM_map]
    refine congrArg (· >>= _) (mapM_congr fun s hs => ?_)
    obtain ⟨t, t', ht, ht', hplugged⟩ := htargets s hs
    rw [Function.comp_apply, ht, ht']
    have hsame : r'.workspace.collectedIn t' = r.workspace.collectedIn t := by
      cases hplugged with
      | nothing => rfl
      | @here c c' hM => exact h.collected_eq hnames hcomment c c' hM
      | idle _ _ hsame => exact hsame
    show (r'.workspace.collectedIn t' >>= _) = (r.workspace.collectedIn t >>= _)
    rw [hsame]
  rw [commentsFor, commentsFor, Workspace.commentsFor, Workspace.commentsFor, h.style, h.handlers,
    h.blocks.inline hb, h.blocks.type hb, hplugged, Workspace.ownComment, Workspace.ownComment,
    hcomment b b' hb]

end Comments

/-! ### Code -/

section Code

-- `Q` relates what is rendered from the blocks below, `P` what is left of that in any place
variable {Q : Block → Piece → Piece → Prop} {P : Piece → Piece → Prop}
  {S : String → String → Prop}
  (hbelow : ∀ c c', M c c' → TransGen r.workspace.Refers b.id c.id →
    Running.Refines reserved (Q c) (r.render c) (r'.render c'))
  (hnothing : P (.statement "") (.statement "")) (hweaken : ∀ c p p', Q c p p' → P p p')

include hbelow

/-- What is plugged into value sockets of one place is rendered to the same expression, if related
pieces make the same operand. A disabled block is as good as nothing. -/
lemma refines_expression (h : r.Mirrors r' M) (hb : M b b')
    (hoperand : ∀ c p p', r.workspace.isInline c.id = true → Q c p p' →
      ∀ type name required default operand, p.asOperand type name required default = .ok operand →
        p'.asOperand type name required default = .ok operand)
    (name : String) (required : Grade) (default : String) : Running.Refines reserved Eq
      (r.expression r.render b name required default)
      (r'.expression r'.render b' name required default) := by
  have hmem := (h.blocks.mem hb).1
  rw [expression_eq, expression_eq]
  have htarget : Running.Refines reserved
      (fun t t' => r.workspace.Plugged r'.workspace M t t' ∧ ∀ c, t = some c →
        r.workspace.Enters b c ∧ r.workspace.isInline c.id = true)
      (Running.ofExcept (r.target? b name .value)) (Running.ofExcept (r'.target? b' name .value)) := by
    refine Running.refines_ofExcept fun t ht => ?_
    obtain ⟨t', ht', hplugged⟩ := h.target?_value hb ht
    refine ⟨t', ht', hplugged, fun c hc => ⟨enters_of_target? (hc ▸ ht), ?_⟩⟩
    exact isInline_of_target? h.valid hmem (hc ▸ ht)
  refine htarget.bind fun t t' ⟨hplugged, hentered⟩ => ?_
  cases hplugged with
  | nothing => exact Running.refines_pure rfl
  | @here c c' hM =>
      obtain ⟨henters, hinline⟩ := hentered c rfl
      have hlower : TransGen r.workspace.Refers b.id c.id := .single ⟨b, hmem, rfl, henters.1⟩
      refine (hbelow c c' hM hlower).bind fun piece piece' hpiece => ?_
      refine Running.refines_ofExcept fun operand hok => ⟨operand, ?_, rfl⟩
      rw [h.blocks.type hM]
      exact hoperand c piece piece' hinline hpiece _ _ _ _ _ hok
  | @idle d t' hd ht' _ =>
      simp only [render_of_idle h.formed h.valid hd]
      cases t' with
      | none => exact Running.refines_pure rfl
      | some e =>
          simp only [render_of_idle h.formed' h.valid' (ht' e rfl)]
          exact Running.refines_pure rfl

include hnothing hweaken

/-- What is plugged into statement sockets of one place is rendered to related bodies. -/
lemma refines_statements (h : r.Mirrors r' M) (hb : M b b')
    (hbody : ∀ p p', P p p' → ∀ type type' name body, p.asBody type name r.style.indent = .ok body →
      ∃ body', p'.asBody type' name r.style.indent = .ok body' ∧ S body body')
    (name : String) :
    Running.Refines reserved S (r.statements r.render b name)
      (r'.statements r'.render b' name) := by
  rw [statements_eq, statements_eq]
  have htarget : Running.Refines reserved
      (fun t t' => r.workspace.Leads r'.workspace M t t' ∧
        ∀ c, t = some c → TransGen r.workspace.Refers b.id c.id)
      (Running.ofExcept (r.target? b name .statement))
      (Running.ofExcept (r'.target? b' name .statement)) := by
    refine Running.refines_ofExcept fun t ht => ?_
    obtain ⟨t', ht', hleads⟩ := h.target?_statement hb ht
    refine ⟨t', ht', hleads, fun c hc => ?_⟩
    exact .single ⟨b, (h.blocks.mem hb).1, rfl, (enters_of_target? (hc ▸ ht)).1⟩
  refine htarget.bind fun t t' ⟨hleads, hlower⟩ => ?_
  refine (h.refines_optional hnothing ?_ hlower hleads).bind fun piece piece' hpiece => ?_
  · exact fun c c' hM hc => (hbelow c c' hM hc).mono (hweaken c)
  · refine Running.refines_ofExcept fun body hok => ?_
    rw [h.style]
    exact hbody piece piece' hpiece _ _ _ _ hok

/-- What follows related blocks is related; nothing follows the last block. -/
lemma refines_next (h : r.Mirrors r' M) (hb : M b b') :
    Running.Refines reserved
      (fun p p' => P p p' ∧ (b.next = none → p = .statement "" ∧ p' = .statement ""))
      (optional r.render (r.workspace.led b.next))
      (optional r'.render (r'.workspace.led b'.next)) := by
  have hleads := h.blocks.next hb
  cases hnext : b.next with
  | none =>
      rw [hnext] at hleads
      rw [Workspace.led_none, hleads.eq_none]
      exact Running.refines_pure ⟨hnothing, fun _ => ⟨rfl, rfl⟩⟩
  | some id =>
      rw [hnext] at hleads
      have hmem := (h.blocks.mem hb).1
      have hlower : ∀ c, r.workspace.led (some id) = some c →
          TransGen r.workspace.Refers b.id c.id := by
        intro c hc
        have hnextOf := hnext ▸ h.formed.nextOf_eq hmem
        exact .single ⟨b, hmem, rfl, (Workspace.enters_of_nextOf (hc ▸ hnextOf)).1⟩
      refine (h.refines_optional hnothing ?_ hlower hleads).mono fun _ _ hpiece => ⟨hpiece, nofun⟩
      exact fun c c' hM hc => (hbelow c c' hM hc).mono (hweaken c)

/-- The comments of related blocks are put in front, and related statements follow. -/
lemma refines_surround (h : r.Mirrors r' M) (hb : M b b')
    (hrest : ∀ p p', P p p' → ∀ type type' rest, p.asRest type = .ok rest →
      ∃ rest', p'.asRest type' = .ok rest' ∧ S rest rest')
    (hcomments : ∀ c, r.commentsFor b = .ok c → ∃ c', r'.commentsFor b' = .ok c')
    (code code' : String) :
    Running.Refines reserved
      (fun full full' => ∃ comments comments' rest rest',
        full = comments ++ code ++ rest ∧ full' = comments' ++ code' ++ rest' ∧
        r.commentsFor b = .ok comments ∧ r'.commentsFor b' = .ok comments' ∧
        S rest rest' ∧ (b.next = none → rest = "" ∧ rest' = ""))
      (r.surround r.render b code) (r'.surround r'.render b' code') := by
  obtain ⟨hmem, hmem'⟩ := h.blocks.mem hb
  rw [surround_eq, surround_eq, h.formed.nextOf_eq hmem, h.formed'.nextOf_eq hmem']
  have hfirst : Running.Refines reserved
      (fun c c' => r.commentsFor b = .ok c ∧ r'.commentsFor b' = .ok c')
      (Running.ofExcept (r.commentsFor b)) (Running.ofExcept (r'.commentsFor b')) := by
    refine Running.refines_ofExcept fun comments hok => ?_
    obtain ⟨comments', hok'⟩ := hcomments comments hok
    exact ⟨comments', hok', hok, hok'⟩
  refine hfirst.bind fun comments comments' ⟨hok, hok'⟩ => ?_
  refine (h.refines_next hbelow hnothing hweaken hb).bind fun piece piece' ⟨hpiece, hlast⟩ => ?_
  have hfollowing : Running.Refines reserved
      (fun rest rest' => S rest rest' ∧ (b.next = none → rest = "" ∧ rest' = ""))
      (Running.ofExcept (piece.asRest b.type)) (Running.ofExcept (piece'.asRest b'.type)) := by
    refine Running.refines_ofExcept fun rest hrest₁ => ?_
    obtain ⟨rest', hrest₂, hS⟩ := hrest piece piece' hpiece _ b'.type rest hrest₁
    refine ⟨rest', hrest₂, hS, fun hnext => ?_⟩
    obtain ⟨rfl, rfl⟩ := hlast hnext
    exact ⟨(Except.ok.inj hrest₁).symm, (Except.ok.inj hrest₂).symm⟩
  refine hfollowing.bind fun rest rest' ⟨hS, hnone⟩ => Running.refines_pure ?_
  exact ⟨comments, comments', rest, rest', rfl, rfl, hok, hok', hS, hnone⟩

/-- Related blocks are rendered alike, if their handlers make related outcomes, which become related
pieces. A disabled block is what follows it. -/
lemma refines_step (h : r.Mirrors r' M) (hb : M b b') {R : Piece → Piece → Prop}
    {O : Outcome → Outcome → Prop}
    (hskipped : ∀ p p', P p p' → (b.next = none → p = .statement "" ∧ p' = .statement "") → R p p')
    (houtcome : Running.Refines reserved O (r.outcome b) (r'.outcome b'))
    (hcomplete : ∀ o o', O o o' →
      Running.Refines reserved R (r.complete b o) (r'.complete b' o')) :
    Running.Refines reserved R (r.render b) (r'.render b') := by
  obtain ⟨hmem, hmem'⟩ := h.blocks.mem hb
  have hdisabled := h.blocks.disabled hb
  cases hcase : b.disabled with
  | true =>
      rw [render_of_disabled h.formed h.valid hmem hcase,
        render_of_disabled h.formed' h.valid' hmem' (hdisabled.trans hcase)]
      refine (h.refines_next hbelow hnothing hweaken hb).mono fun p p' hboth => ?_
      exact hskipped p p' hboth.1 hboth.2
  | false =>
      rw [render_eq_outcome h.valid hmem hcase,
        render_eq_outcome h.valid' hmem' (hdisabled.trans hcase)]
      exact houtcome.bind hcomplete

omit hbelow hnothing hweaken

/-- The handler of related blocks is the same, so what it makes of them is related if carrying out
its plan is. -/
lemma refines_outcome (h : r.Mirrors r' M) (hb : M b b') {O : Outcome → Outcome → Prop}
    (hplan : ∀ handler : Handler, r.handlers.resolve b.type = .ok handler →
      Running.Refines reserved O
        ((handler r.site b.face).run r.style.indent (r.services r.render b))
        ((handler r.site b.face).run r.style.indent (r'.services r'.render b'))) :
    Running.Refines reserved O (r.outcome b) (r'.outcome b') := by
  rw [outcome, outcome, h.handlers, h.blocks.type hb, h.site_eq, h.blocks.face hb, h.style]
  have hhandler : Running.Refines reserved
      (fun handler handler' => handler = handler' ∧ r.handlers.resolve b.type = .ok handler)
      (Running.ofExcept (r.handlers.resolve b.type))
      (Running.ofExcept (r.handlers.resolve b.type)) :=
    Running.refines_ofExcept fun handler hok => ⟨handler, hok, rfl, hok⟩
  refine hhandler.bind fun handler handler' hboth => ?_
  obtain ⟨rfl, hresolve⟩ := hboth
  exact hplan handler hresolve

end Code

/-! ### The same code -/

section SameComments

variable (hbelow : ∀ c c', M c c' → TransGen r.workspace.Refers b.id c.id →
  Running.Refines reserved Eq (r.render c) (r'.render c'))

include hbelow

lemma refines_expression_eq (h : r.Mirrors r' M) (hb : M b b') (name : String) (required : Grade)
    (default : String) : Running.Refines reserved Eq
      (r.expression r.render b name required default)
      (r'.expression r'.render b' name required default) :=
  h.refines_expression hbelow hb (fun _ _ _ _ hpiece _ _ _ _ _ hok => hpiece ▸ hok) name required
    default

lemma refines_statements_eq (h : r.Mirrors r' M) (hb : M b b') (name : String) :
    Running.Refines reserved Eq (r.statements r.render b name)
      (r'.statements r'.render b' name) := by
  refine h.refines_statements hbelow rfl (fun _ _ _ hpiece => hpiece) hb ?_ name
  rintro (⟨text, grade⟩ | text) _ rfl type type' name body hok
  · exact nomatch hok
  · exact ⟨body, hok, rfl⟩

lemma refines_surround_eq (h : r.Mirrors r' M) (hb : M b b')
    (hcomments : r'.commentsFor b' = r.commentsFor b) (code : String) :
    Running.Refines reserved Eq (r.surround r.render b code)
      (r'.surround r'.render b' code) := by
  refine (h.refines_surround hbelow rfl (fun _ _ _ hpiece => hpiece) hb (S := Eq) ?_
    (fun c hc => ⟨c, hcomments.trans hc⟩) code code).mono ?_
  · rintro (⟨text, grade⟩ | text) _ rfl type type' rest hok
    · exact nomatch hok
    · exact ⟨rest, hok, rfl⟩
  · rintro full full' ⟨comments, comments', rest, rest', rfl, rfl, hok, hok', rfl, -⟩
    rw [hcomments] at hok'
    rw [Except.ok.inj (hok.symm.trans hok')]

end SameComments

/-- Related blocks with the same comments are rendered to the same code. -/
lemma refines_render (h : r.Mirrors r' M)
    (hcomments : ∀ b b', M b b' → r'.commentsFor b' = r.commentsFor b) :
    ∀ b b', M b b' → Running.Refines reserved Eq (r.render b) (r'.render b') := by
  have hall : ∀ b ∈ r.workspace.blocks, ∀ b', M b b' →
      Running.Refines reserved Eq (r.render b) (r'.render b') := by
    refine Workspace.induction_below h.formed h.valid fun b hmem ih b' hb => ?_
    have hbelow : ∀ c c', M c c' → TransGen r.workspace.Refers b.id c.id →
        Running.Refines reserved Eq (r.render c) (r'.render c') :=
      fun c c' hM hlower => ih c (h.blocks.mem hM).1 hlower c' hM
    have hsurround := h.refines_surround_eq hbelow hb (hcomments b b' hb)
    refine h.refines_step hbelow rfl (fun _ _ _ hpiece => hpiece) hb (O := Eq)
      (fun _ _ hpiece _ => hpiece) (h.refines_outcome hb fun handler _ => ?_) ?_
    · exact (Plan.alike_refl _).refines (h.refines_expression_eq hbelow hb)
        (h.refines_statements_eq hbelow hb) hsurround
    · rintro outcome _ rfl
      cases outcome with
      | value code grade =>
          exact (hsurround code).bind fun full full' hfull => hfull ▸ Running.refines_pure rfl
      | statement code =>
          exact (hsurround code).bind fun full full' hfull => hfull ▸ Running.refines_pure rfl
      | nothing => exact Running.refines_pure rfl
      | other kindName =>
          rw [complete, complete, h.blocks.type hb]
          exact Running.refines_throw _
  exact fun b b' hb => hall b (h.blocks.mem hb).1 b' hb

end Mirrors

/-! ### Top-level blocks -/

section Tops

variable {reserved : List String} {M : Block → Block → Prop} {idle : Block → Prop}
  {T : String → String → Prop}

/-- The texts that are not empty are related one by one. -/
lemma refines_texts {f f' : Block → Running String}
    (hM : ∀ b b', M b b' →
      Running.Refines reserved (fun t t' => (t = "" ↔ t' = "") ∧ T t t') (f b) (f' b'))
    (hidle : ∀ b', idle b' → f' b' = pure "") {l l' : List Block} (h : Workspace.Lined M idle l l') :
    Running.Refines reserved
      (fun ts ts' => List.Forall₂ T (ts.filter fun t => t ≠ "") (ts'.filter fun t => t ≠ ""))
      (l.mapM f) (l'.mapM f') := by
  induction h with
  | nil => exact Running.refines_pure .nil
  | both hb _ ih =>
      rw [List.mapM_cons, List.mapM_cons]
      refine (hM _ _ hb).bind fun t t' ⟨hempty, hT⟩ => ih.bind fun ts ts' hts => ?_
      refine Running.refines_pure ?_
      by_cases ht : t = ""
      · rw [List.filter_cons_of_neg (by simpa using ht),
          List.filter_cons_of_neg (by simpa using hempty.mp ht)]
        exact hts
      · rw [List.filter_cons_of_pos (by simpa using ht),
          List.filter_cons_of_pos (by simpa using fun ht' => ht (hempty.mpr ht'))]
        exact .cons hT hts
  | @idle b' l l' hb _ ih =>
      rw [List.mapM_cons, hidle b' hb, pure_bind, ← bind_pure (l.mapM f)]
      exact ih.bind fun ts ts' hts => Running.refines_pure hts

/-- The text of all top-level blocks is put together from texts that are related one by one. -/
lemma refines_renderTops {r r' : Renderer}
    (hM : ∀ b b', M b b' → Running.Refines reserved (fun p p' =>
      (topText p = "" ↔ topText p' = "") ∧ T (topText p) (topText p')) (r.render b) (r'.render b'))
    (hidle : ∀ b', idle b' → r'.render b' = pure (.statement ""))
    (h : Workspace.Lined M idle r.workspace.topBlocks r'.workspace.topBlocks) :
    Running.Refines reserved (fun body body' => ∃ ts ts', List.Forall₂ T ts ts' ∧
      (∀ t ∈ ts, t ≠ "") ∧ body = "\n".intercalate ts ∧ body' = "\n".intercalate ts')
      r.renderTops r'.renderTops := by
  refine Running.Refines.bind (refines_texts (T := T) (fun b b' hb => ?_) (fun b' hb => ?_) h) ?_
  · exact (hM b b' hb).bind fun p p' hp => Running.refines_pure hp
  · rw [hidle b' hb]
    rfl
  · intro ts ts' hts
    refine Running.refines_pure ⟨_, _, hts, fun t ht => ?_, rfl, rfl⟩
    simpa using (List.mem_filter.mp ht).2

end Tops

end Renderer

end Blockscribe
