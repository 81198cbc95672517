/-
Conditional statements and procedures, and the bodies in them.

* `IsBody`: a body is made of whole lines, at least one, that begin with the indent.
* `conditionalSockets`: the sockets of a conditional statement, from which the number of its
  conditions is read off.
* `Workspace.inSocket`: the block in a socket.
* `Renderer.Condition`, `Body`: the condition and the body that stand for the block in a socket;
  `isBody_of_body` says that the latter is one.
* `Clauses`, `OtherCase`: the clauses of a conditional statement, rendered one after the other.
* `exists_of_run_conditional`, `exists_of_run_definition`: what their handlers give.
* `render_bodies`: conditional statements are made of their clauses, and no body is empty.
-/
import Mathlib.Data.List.Flatten
import Blockscribe.Proofs.Plan.Exchanges
import Blockscribe.Proofs.Program.SolidLines
import Blockscribe.Proofs.Render.Operand
import Blockscribe.Proofs.Render.Whole
import Blockscribe.Proofs.Workspace.Mirror

namespace Blockscribe

open Text (Ended)

/-! ### Bodies -/

/-- A body: whole lines, at least one, each of which begins with the indent. -/
def IsBody (indent body : String) : Prop :=
  ∃ front, body = front ++ "\n" ∧
    ∀ line ∈ Text.splitLines front.toList, indent.toList <+: line

/-- Lines with a lead begin with it. -/
lemma Text.exists_of_leadLines {lead cs : List Char} (hlead : '\n' ∉ lead) (h : Ended cs)
    (hne : cs ≠ []) :
    ∃ front, leadLines lead cs = front ++ ['\n'] ∧ ∀ line ∈ splitLines front, lead <+: line := by
  induction h with
  | nil => exact absurd rfl hne
  | @line l rest hl _ ih =>
      have hfirst : '\n' ∉ lead ++ l := fun hmem => (List.mem_append.mp hmem).elim hlead hl
      rw [leadLines_line hl]
      by_cases hrest : rest = []
      · refine ⟨lead ++ l, by rw [if_pos hrest, List.append_assoc], fun line hline => ?_⟩
        rw [splitLines_of_not_mem hfirst, List.mem_singleton] at hline
        exact hline ▸ List.prefix_append lead l
      · obtain ⟨front, hfront, hled⟩ := ih hrest
        refine ⟨lead ++ l ++ '\n' :: front, ?_, fun line hline => ?_⟩
        · rw [if_neg hrest, hfront]
          simp only [List.append_assoc, List.cons_append]
        · rw [splitLines_line hfirst, List.mem_cons] at hline
          rcases hline with rfl | hline
          · exact List.prefix_append lead l
          · exact hled line hline

section Bodies

variable {indent : String} (hindent : '\n' ∉ indent.toList)

include hindent

/-- Indented statements are a body. -/
lemma isBody_leadLines {code : String} (hcode : Ended code.toList) (hne : code ≠ "") :
    IsBody indent (leadLines indent code) := by
  obtain ⟨front, hfront, hled⟩ := Text.exists_of_leadLines hindent hcode (toList_ne_nil hne)
  refine ⟨String.ofList front, String.toList_injective ?_, by rwa [String.toList_ofList]⟩
  rw [toList_leadLines, hfront, String.toList_append, String.toList_ofList]
  rfl

/-- An indented line is a body. -/
lemma isBody_line {line : String} (hline : '\n' ∉ line.toList) :
    IsBody indent (indent ++ line ++ "\n") := by
  refine ⟨indent ++ line, rfl, fun l hl => ?_⟩
  rw [String.toList_append, Text.splitLines_of_not_mem, List.mem_singleton] at hl
  · exact hl ▸ List.prefix_append _ _
  · exact fun hmem => (List.mem_append.mp hmem).elim hindent hline

end Bodies

/-- The body of a procedure, after the line that binds variables: a body, or a return statement with
a body or nothing before it. -/
inductive IsProcedureBody (indent : String) : String → Prop
  | body {body : String} : IsBody indent body → IsProcedureBody indent body
  | result {branch result : String} : branch = "" ∨ IsBody indent branch → result ≠ "" →
      IsProcedureBody indent (branch ++ indent ++ "return " ++ result ++ "\n")

/-! ### The sockets of a conditional statement -/

/-- The names of the sockets of a conditional statement with a number of conditions. -/
def conditionalSockets (n : ℕ) (other : Bool) : List String :=
  ((List.range n).flatMap fun i => ["IF" ++ toString i, "DO" ++ toString i]) ++
    if other then ["ELSE"] else []

lemma Text.isDigit_of_ascii {c : Char} (h : c.isDigit = true) : isDigit c = true := by
  have hsmall : c.toNat < 0x80 := by
    rw [Char.isDigit, Bool.and_eq_true, decide_eq_true_eq, decide_eq_true_eq] at h
    have hle : c.toNat ≤ 57 := h.2
    omega
  rw [isDigit, isDecimal, decimalValue?, if_pos hsmall, if_pos h]
  rfl

lemma Face.isNumbered_toString (word : String) (n : ℕ) :
    isNumbered word (word ++ toString n) = true := by
  have hdigits : ∀ c ∈ Nat.toDigits 10 n, Text.isDigit c = true := by
    intro c hc
    have hdigit := Nat.isDigit_of_mem_toDigits (by decide) (by decide) hc
    exact Text.isDigit_of_ascii hdigit
  rw [isNumbered, String.toList_append, Nat.toString_eq_ofList_toDigits, String.toList_ofList,
    ← String.length_toList, List.drop_left, Bool.and_eq_true, Bool.and_eq_true, List.all_eq_true]
  refine ⟨?_, ?_, hdigits⟩
  · simp
  · simp

section Sockets

variable {b : Block} {n : ℕ} {other : Bool}
  (h : (b.sockets.map Socket.name).Perm (conditionalSockets n other))

include h

/-- As many sockets carry the word for conditions and a number as there are conditions. -/
lemma numbered_conditionalSockets : b.face.numbered "IF" = n := by
  have hfilter := (h.filter (Face.isNumbered "IF")).length_eq
  have hpair : ∀ i : ℕ, (["IF" ++ toString i, "DO" ++ toString i]).filter (Face.isNumbered "IF") =
      ["IF" ++ toString i] := by
    intro i
    rw [List.filter_cons_of_pos (Face.isNumbered_toString "IF" i), List.filter_cons_of_neg]
    · rfl
    · simp [Face.isNumbered, String.toList_append]
  have hother : (if other then ["ELSE"] else []).filter (Face.isNumbered "IF") = [] := by
    cases other <;> decide
  rw [conditionalSockets, List.filter_append, hother, List.append_nil, List.filter_flatMap] at hfilter
  simp only [hpair, List.length_flatMap] at hfilter
  exact hfilter.trans (by simp)

lemma hasSocket_conditionalSockets : b.face.hasSocket "ELSE" = other := by
  have hmem : "ELSE" ∈ b.sockets.map Socket.name ↔ other = true := by
    rw [h.mem_iff, conditionalSockets, List.mem_append, List.mem_flatMap]
    constructor
    · rintro (⟨i, -, hi⟩ | helse)
      · simp [String.ext_iff] at hi
      · cases other with
        | false => exact nomatch helse
        | true => rfl
    · rintro rfl
      exact Or.inr List.mem_cons_self
  rw [Face.hasSocket, Bool.eq_iff_iff, List.contains_iff_mem]
  exact hmem

end Sockets

/-! ### Carrying out a plan -/

namespace Plan

variable (indent : String) (services : Services) (socket : String)

lemma run_expr (required : Rank) (default : String) :
    (expr socket required default).run indent services =
      services.expression socket (.rank required) default := bind_pure _

lemma run_body : (body socket).run indent services = services.statements socket := bind_pure _

lemma run_withSurroundings (code : String) :
    (withSurroundings code).run indent services = services.surround code := bind_pure _

end Plan

/-! ### What stands in a socket -/

/-- The block in a socket. -/
def Workspace.inSocket (w : Workspace) (b : Block) (name : String) : Option Block :=
  w.led ((b.socket? name).bind Socket.target)

/-- The code of a piece, of either kind. -/
def Piece.code : Piece → String
  | value code _ => code
  | statement code => code

namespace Renderer

variable {r : Renderer} {b c : Block} {name code : String} {s t : Run}

/-- What a handler finds in a socket is the block in it. -/
lemma inSocket_of_target? {kind : SocketKind} {target : Option Block}
    (h : r.target? b name kind = .ok target) : r.workspace.inSocket b name = target := by
  cases target with
  | some c =>
      obtain ⟨socket, hs, -, htarget, hfind⟩ := socket_of_target? h
      rw [Workspace.inSocket, hs, Option.bind_some, htarget, Workspace.led_some, hfind]
  | none =>
      rw [target?] at h
      cases hs : b.socket? name with
      | none => rw [Workspace.inSocket, hs, Option.bind_none, Workspace.led_none]
      | some socket =>
          rw [Workspace.inSocket, hs, Option.bind_some]
          rw [hs] at h
          cases hid : socket.target with
          | none => rfl
          | some id =>
              simp only [hid] at h
              split at h
              · cases hget : r.workspace.get id <;> rw [hget] at h <;> cases h
              · cases h

/-- The condition that stands for the block in a socket; without code it is false. -/
inductive Condition (r : Renderer) (b : Block) (name : String) (s : Run) : String → Run → Prop
  | missing : r.workspace.inSocket b name = none → Condition r b name s "False" s
  | silent {c : Block} {piece : Piece} {t : Run} : r.workspace.inSocket b name = some c →
      (r.render c).run s = .ok piece t → piece.code = "" → Condition r b name s "False" t
  | code {c : Block} {code : String} {grade : Grade} {t : Run} :
      r.workspace.inSocket b name = some c → (r.render c).run s = .ok (.value code grade) t →
      code ≠ "" → Condition r b name s code t

/-- The body that stands for the block in a socket: its statements, indented by one level, or the
empty statement if there are none. -/
inductive Body (r : Renderer) (b : Block) (name : String) (s : Run) : String → Run → Prop
  | missing : r.workspace.inSocket b name = none → Body r b name s r.style.emptyBody s
  | silent {c : Block} {t : Run} : r.workspace.inSocket b name = some c →
      (r.render c).run s = .ok (.statement "") t → Body r b name s r.style.emptyBody t
  | code {c : Block} {code : String} {t : Run} : r.workspace.inSocket b name = some c →
      (r.render c).run s = .ok (.statement code) t → code ≠ "" →
      Body r b name s (leadLines r.style.indent code) t

lemma condition_of_run
    (h : ((Plan.expr name .none "False").run r.style.indent
      (r.services r.render b)).run s = .ok code t) :
    r.Condition b name s code t := by
  have hservice : (r.expression r.render b name (.rank .none) "False").run s = .ok code t := by
    rw [← h, Plan.run_expr]
    rfl
  rw [expression_eq] at hservice
  obtain ⟨target, s', hfirst, hrest⟩ := Running.exists_of_run_bind hservice
  obtain ⟨htarget, rfl⟩ := Running.eq_ok_of_run_ofExcept hfirst
  have hsocket := inSocket_of_target? htarget
  cases target with
  | none =>
      obtain ⟨rfl, rfl⟩ := EStateM.Result.ok.inj hrest
      exact .missing hsocket
  | some c =>
      obtain ⟨piece, s'', hpiece, hresult⟩ := Running.exists_of_run_bind hrest
      obtain ⟨hoperand, rfl⟩ := Running.eq_ok_of_run_ofExcept hresult
      cases piece with
      | statement text =>
          rw [Piece.asOperand] at hoperand
          split at hoperand
          · rename_i hempty
            exact Except.ok.inj hoperand ▸ .silent hsocket hpiece hempty
          · cases hoperand
      | value text grade =>
          rw [Piece.asOperand] at hoperand
          split at hoperand
          · rename_i hempty
            exact Except.ok.inj hoperand ▸ .silent hsocket hpiece hempty
          · rename_i hne
            cases grade with
            | unknown v => cases hoperand
            | rank g =>
                obtain rfl := Except.ok.inj hoperand
                rw [wrap_of_le (by cases g <;> decide)]
                exact .code hsocket hpiece hne

lemma body_of_run
    (h : ((Plan.body name).run r.style.indent (r.services r.render b)).run s = .ok code t) :
    r.Body b name s (r.site.bodyOr code) t := by
  have hservice : (r.statements r.render b name).run s = .ok code t := by
    rw [← h, Plan.run_body]
    rfl
  rw [statements_eq] at hservice
  obtain ⟨target, s', hfirst, hrest⟩ := Running.exists_of_run_bind hservice
  obtain ⟨htarget, rfl⟩ := Running.eq_ok_of_run_ofExcept hfirst
  have hsocket := inSocket_of_target? htarget
  obtain ⟨piece, s'', hpiece, hresult⟩ := Running.exists_of_run_bind hrest
  obtain ⟨hbody, rfl⟩ := Running.eq_ok_of_run_ofExcept hresult
  cases target with
  | none =>
      obtain ⟨rfl, rfl⟩ := EStateM.Result.ok.inj hpiece
      obtain rfl := Except.ok.inj hbody
      exact .missing hsocket
  | some c =>
      cases piece with
      | value text grade => exact nomatch hbody
      | statement text =>
          rw [Piece.asBody] at hbody
          obtain rfl := Except.ok.inj hbody
          by_cases htext : text = ""
          · subst htext
            exact .silent hsocket hpiece
          · rw [if_neg htext, Site.bodyOr, if_neg (leadLines_ne_empty _ htext)]
            exact .code hsocket hpiece htext

lemma isBody_of_body (hr : r.handlers = Handler.standard) (hdialect : r.style.dialect ∈ Dialect.all)
    (hindent : '\n' ∉ r.style.indent.toList) {reserved : List String} (hs : s.NamesFrom reserved)
    (h : r.Body b name s code t) : IsBody r.style.indent code := by
  have hempty : IsBody r.style.indent r.style.emptyBody := by
    refine isBody_line hindent ?_
    simp only [Dialect.all, List.mem_cons, List.not_mem_nil, or_false] at hdialect
    rcases hdialect with hdialect | hdialect <;> rw [hdialect] <;> decide
  cases h with
  | missing _ => exact hempty
  | silent _ _ => exact hempty
  | code _ hrun hne => exact isBody_leadLines hindent (whole_render hr _ s hs _ _ hrun).2 hne

/-! ### Carrying out the plan of a block -/

section Plans

variable {α β : Type} {p : Plan α} {f : α → Plan β} {a : β} {reserved : List String}
  (hs : s.NamesFrom reserved)
  (h : ((p >>= f).run r.style.indent (r.services r.render b)).run s = .ok a t)

include hs h

/-- A plan that goes on with another one: both lead to later states. -/
lemma exists_grows_of_run_plan_bind :
    ∃ x u, (p.run r.style.indent (r.services r.render b)).run s = .ok x u ∧
      s.Grows reserved u ∧ u.Grows reserved t ∧
      ((f x).run r.style.indent (r.services r.render b)).run u = .ok a t := by
  have hextends : ∀ {γ : Type} (q : Plan γ),
      Running.Extends reserved (q.run r.style.indent (r.services r.render b)) := fun q =>
    Plan.extends_run _ (extends_expression (extends_render r) b)
      (extends_statements (extends_render r) b) (extends_surround (extends_render r) b) q
  obtain ⟨x, u, hfirst, hrest⟩ := Plan.exists_of_run_plan h
  have hgrows := (hextends p).grows_of_ok hs hfirst
  exact ⟨x, u, hfirst, hgrows, (hextends (f x)).grows_of_ok hgrows.namesFrom hrest, hrest⟩

/-- In between identifiers come from requests. -/
lemma exists_of_run_plan_bind :
    ∃ x u, (p.run r.style.indent (r.services r.render b)).run s = .ok x u ∧
      u.NamesFrom reserved ∧
      ((f x).run r.style.indent (r.services r.render b)).run u = .ok a t := by
  obtain ⟨x, u, hfirst, hgrows, -, hrest⟩ := exists_grows_of_run_plan_bind hs h
  exact ⟨x, u, hfirst, hgrows.namesFrom, hrest⟩

end Plans

/-! ### Conditional statements -/

/-- The conditions of a conditional statement and their bodies, from a number on, rendered one after
the other. -/
inductive Clauses (r : Renderer) (b : Block) : ℕ → Run → List (String × String) → Run → Prop
  | nil {n : ℕ} {s : Run} : Clauses r b n s [] s
  | cons {n : ℕ} {s u v t : Run} {condition body : String} {rest : List (String × String)} :
      r.Condition b ("IF" ++ toString n) s condition u →
      r.Body b ("DO" ++ toString n) u body v → Clauses r b (n + 1) v rest t →
      Clauses r b n s ((condition, body) :: rest) t

/-- The body of the other case of a conditional statement, if there is a socket for it. -/
inductive OtherCase (r : Renderer) (b : Block) (s : Run) : Bool → Option String → Run → Prop
  | absent : OtherCase r b s false none s
  | present {body : String} {t : Run} : r.Body b "ELSE" s body t →
      OtherCase r b s true (some body) t

/-- A condition and its body as code. -/
def clauseCode (keyword : String) (clause : String × String) : String :=
  keyword ++ " " ++ clause.1 ++ ":\n" ++ clause.2

/-- The clauses of a conditional statement and the body of its other case as code. -/
def conditionalCode (first : String × String) (further : List (String × String))
    (other : Option String) : String :=
  clauseCode "if" first ++ String.join (further.map (clauseCode "elif")) ++
    other.elim "" ("else:\n" ++ ·)

section Handlers

variable (hr : r.handlers = Handler.standard) (hdialect : r.style.dialect ∈ Dialect.all)
  (hindent : '\n' ∉ r.style.indent.toList) {reserved : List String} (hs : s.NamesFrom reserved)

include hr hdialect hindent hs

lemma exists_of_run_clause {keyword : String} {n : ℕ}
    (h : ((Handler.Logic.clause r.site keyword n).run r.style.indent
      (r.services r.render b)).run s = .ok code t) :
    ∃ condition body u, r.Condition b ("IF" ++ toString n) s condition u ∧
      r.Body b ("DO" ++ toString n) u body t ∧ IsBody r.style.indent body ∧
      code = clauseCode keyword (condition, body) := by
  obtain ⟨condition, u, hcondition, hu, hrest⟩ := exists_of_run_plan_bind hs h
  obtain ⟨branch, v, hbranch, -, hcode⟩ := exists_of_run_plan_bind hu hrest
  obtain ⟨rfl, rfl⟩ := EStateM.Result.ok.inj hcode
  have hbody := body_of_run hbranch
  exact ⟨condition, _, u, condition_of_run hcondition, hbody,
    isBody_of_body hr hdialect hindent hu hbody, rfl⟩

/-- The further clauses: the induction is on how many there are. -/
lemma exists_of_run_clauses {keyword : String} {n k : ℕ} {codes : List String}
    (h : (((List.range' k n).mapM fun i => Handler.Logic.clause r.site keyword i).run
      r.style.indent (r.services r.render b)).run s = .ok codes t) :
    ∃ clauses, r.Clauses b k s clauses t ∧ clauses.length = n ∧
      (∀ clause ∈ clauses, IsBody r.style.indent clause.2) ∧
      codes = clauses.map (clauseCode keyword) := by
  induction n generalizing s k codes with
  | zero =>
      obtain ⟨rfl, rfl⟩ := EStateM.Result.ok.inj h
      exact ⟨[], .nil, rfl, nofun, rfl⟩
  | succ n ih =>
      rw [List.range'_succ, List.mapM_cons] at h
      obtain ⟨code, u, hfirst, hu, hrest⟩ := exists_of_run_plan_bind hs h
      obtain ⟨more, v, hmore, -, hall⟩ := exists_of_run_plan_bind hu hrest
      obtain ⟨rfl, rfl⟩ := EStateM.Result.ok.inj hall
      obtain ⟨condition, body, u', hcondition, hbody, hisBody, rfl⟩ :=
        exists_of_run_clause hr hdialect hindent hs hfirst
      obtain ⟨clauses, hclauses, rfl, hbodies, rfl⟩ := ih hu hmore
      refine ⟨(condition, body) :: clauses, .cons hcondition hbody hclauses, rfl, ?_, rfl⟩
      exact List.forall_mem_cons.mpr ⟨hisBody, hbodies⟩

/-- What the handler of a conditional statement gives. -/
lemma exists_of_run_conditional {outcome : Outcome}
    (h : ((Handler.Logic.conditional r.site b.face).run r.style.indent
      (r.services r.render b)).run s = .ok outcome t) :
    ∃ first further other u, r.Clauses b 0 s (first :: further) u ∧
      further.length = b.face.numbered "IF" - 1 ∧
      r.OtherCase b u (b.face.hasSocket "ELSE") other t ∧
      (∀ body ∈ (first :: further).map Prod.snd ++ other.toList, IsBody r.style.indent body) ∧
      outcome = .statement (conditionalCode first further other) := by
  obtain ⟨code, u, hfirst, hu, hrest⟩ := exists_of_run_plan_bind hs h
  obtain ⟨codes, v, hfurther, hv, hother⟩ := exists_of_run_plan_bind hu hrest
  obtain ⟨condition, body, s', hcondition, hbody, hisBody, rfl⟩ :=
    exists_of_run_clause hr hdialect hindent hs hfirst
  obtain ⟨further, hclauses, hlength, hbodies, rfl⟩ :=
    exists_of_run_clauses hr hdialect hindent hu hfurther
  have hall : ∀ body' ∈ ((condition, body) :: further).map Prod.snd,
      IsBody r.style.indent body' :=
    List.forall_mem_cons.mpr ⟨hisBody, List.forall_mem_map.mpr hbodies⟩
  cases hsocket : b.face.hasSocket "ELSE" with
  | false =>
      rw [hsocket] at hother
      obtain ⟨rfl, rfl⟩ := EStateM.Result.ok.inj hother
      refine ⟨_, further, none, _, .cons hcondition hbody hclauses, hlength, .absent, ?_, ?_⟩
      · rw [Option.toList_none, List.append_nil]
        exact hall
      · rw [conditionalCode, Option.elim_none, String.append_empty]
  | true =>
      rw [hsocket] at hother
      obtain ⟨branch, v', hbranch, -, hend⟩ := exists_of_run_plan_bind hv hother
      obtain ⟨rfl, rfl⟩ := EStateM.Result.ok.inj hend
      have helse := body_of_run hbranch
      refine ⟨_, further, some _, _, .cons hcondition hbody hclauses, hlength, .present helse, ?_,
        ?_⟩
      · rw [Option.toList_some, List.forall_mem_append]
        exact ⟨hall, List.forall_mem_singleton.mpr (isBody_of_body hr hdialect hindent hv helse)⟩
      · rw [conditionalCode, Option.elim_some, ← String.append_assoc]

/-- What the handler of a procedure writes. -/
lemma exists_of_run_definition {outcome : Outcome}
    (h : ((Handler.Procedures.definition r.site b.face).run r.style.indent
      (r.services r.render b)).run s = .ok outcome t) :
    ∃ identifier arguments shared body u text v,
      (r.surround r.render b ("def " ++ identifier ++ "(" ++ ", ".intercalate arguments ++ "):\n" ++
        Handler.Procedures.bindingLine r.site shared ++ body)).run u = .ok text v ∧
      IsProcedureBody r.style.indent body ∧ t = v.define ("%" ++ identifier) text ∧
      outcome = .nothing := by
  obtain ⟨names, s₁, -, hs₁, h⟩ := exists_of_run_plan_bind hs h
  obtain ⟨shared, s₂, -, hs₂, h⟩ := exists_of_run_plan_bind hs₁ h
  obtain ⟨name, s₃, -, hs₃, h⟩ := exists_of_run_plan_bind hs₂ h
  obtain ⟨identifier, s₄, -, hs₄, h⟩ := exists_of_run_plan_bind hs₃ h
  obtain ⟨branch, s₅, hbranch, hs₅, h⟩ := exists_of_run_plan_bind hs₄ h
  obtain ⟨result, s₆, -, hs₆, h⟩ := exists_of_run_plan_bind hs₅ h
  obtain ⟨arguments, s₇, -, hs₇, h⟩ := exists_of_run_plan_bind hs₆ h
  obtain ⟨text, s₈, hsurround, hs₈, h⟩ := exists_of_run_plan_bind hs₇ h
  obtain ⟨_, s₉, hdefine, -, h⟩ := exists_of_run_plan_bind hs₈ h
  obtain ⟨-, rfl⟩ := EStateM.Result.ok.inj hdefine
  obtain ⟨rfl, rfl⟩ := EStateM.Result.ok.inj h
  have hstack := isBody_of_body hr hdialect hindent hs₄ (body_of_run hbranch)
  rw [Plan.run_withSurroundings] at hsurround
  refine ⟨identifier, arguments, shared, _, s₇, text, s₈, hsurround, ?_, rfl, rfl⟩
  rw [Handler.Procedures.tail]
  split
  · rename_i hresult
    refine .result ?_ hresult
    by_cases hempty : branch = ""
    · exact .inl hempty
    · rw [Site.bodyOr, if_neg hempty] at hstack
      exact .inr hstack
  · exact .body hstack

end Handlers

/-- An enabled block is rendered by its handler, which ends in the state in which its code is put
between comments and what follows. -/
lemma exists_of_run_render (hvalid : r.workspace.validate = .ok ()) (hb : b ∈ r.workspace.blocks)
    (henabled : b.disabled = false) {piece : Piece} (h : (r.render b).run s = .ok piece t) :
    ∃ outcome u, (r.outcome b).run s = .ok outcome u ∧
      (r.complete b outcome).run u = .ok piece t := by
  rw [render_eq_outcome hvalid hb henabled] at h
  exact Running.exists_of_run_bind h

/-- **Conditional statements are made of their clauses, and no body is empty.** Where a block is
rendered, in a style with an indent of spaces and tabs, the statements that it gives are empty or end
with a line feed. A conditional statement with the sockets of so many conditions, in any order, is
the code of its clauses, one after the other, and of its other case if there is a socket for it: a
condition is the expression in its socket, or false without one; a body is what stands in its socket,
indented by one level, or the empty statement, and so it is made of lines that begin with the indent,
at least one. A definition of a procedure gives nothing where it stands, and the procedure that it
writes has a body, or a return statement. Identifiers come from requests, as they do in every run. -/
theorem render_bodies {w : Workspace} (hvalid : w.validate = .ok ()) (style : Style)
    (hdialect : style.dialect ∈ Dialect.all)
    (hindent : ∀ c ∈ style.indent.toList, c = ' ' ∨ c = '\t') {b : Block} (hb : b ∈ w.blocks)
    {s t : Run} (hs : s.NamesFrom style.dialect.reserved) {piece : Piece}
    (hrun : ((standard w style).render b).run s = .ok piece t) :
    (∀ code, piece = .statement code → code = "" ∨ ∃ front, code = front ++ "\n") ∧
    (b.disabled = false → b.type = "controls_if" → ∀ (n : ℕ) (hasOther : Bool), 1 ≤ n →
      (b.sockets.map Socket.name).Perm (conditionalSockets n hasOther) →
      ∃ first further other u v text, (standard w style).Clauses b 0 s (first :: further) u ∧
        (first :: further).length = n ∧ (standard w style).OtherCase b u hasOther other v ∧
        (∀ body ∈ (first :: further).map Prod.snd ++ other.toList, IsBody style.indent body) ∧
        ((standard w style).surround (standard w style).render b
          (conditionalCode first further other)).run v = .ok text t ∧ piece = .statement text) ∧
    (b.disabled = false → b.type ∈ Handler.Procedures.definers →
      ∃ identifier arguments shared body u text v,
        ((standard w style).surround (standard w style).render b
          ("def " ++ identifier ++ "(" ++ ", ".intercalate arguments ++ "):\n" ++
            Handler.Procedures.bindingLine (standard w style).site shared ++ body)).run u =
          .ok text v ∧
        IsProcedureBody style.indent body ∧ t = v.define ("%" ++ identifier) text ∧
        piece = .statement "") := by
  have hbreak : '\n' ∉ style.indent.toList := fun hmem =>
    (hindent _ hmem).elim (by decide) (by decide)
  refine ⟨?_, fun henabled htype n hasOther hn hsockets => ?_, fun henabled htype => ?_⟩
  · rintro code rfl
    exact eq_empty_or_of_ended (whole_render (r := standard w style) rfl b s hs _ _ hrun).2
  · obtain ⟨outcome, v, houtcome, hcomplete⟩ :=
      exists_of_run_render (r := standard w style) hvalid hb henabled hrun
    rw [outcome_eq rfl htype rfl] at houtcome
    obtain ⟨first, further, other, u, hclauses, hlength, hother, hbodies, rfl⟩ :=
      exists_of_run_conditional rfl hdialect hbreak hs houtcome
    obtain ⟨text, v', hsurround, hend⟩ := Running.exists_of_run_bind hcomplete
    obtain ⟨rfl, rfl⟩ := EStateM.Result.ok.inj hend
    rw [numbered_conditionalSockets hsockets] at hlength
    rw [hasSocket_conditionalSockets hsockets] at hother
    refine ⟨first, further, other, u, v, text, hclauses, ?_, hother, hbodies, hsurround, rfl⟩
    rw [List.length_cons]
    omega
  · obtain ⟨outcome, v, houtcome, hcomplete⟩ :=
      exists_of_run_render (r := standard w style) hvalid hb henabled hrun
    rw [outcome_eq rfl rfl (Handler.lookup_of_mem_definers htype)] at houtcome
    obtain ⟨identifier, arguments, shared, body, u, text, v', hsurround, hbody, rfl, rfl⟩ :=
      exists_of_run_definition rfl hdialect hbreak hs houtcome
    obtain ⟨rfl, rfl⟩ := EStateM.Result.ok.inj hcomplete
    exact ⟨identifier, arguments, shared, body, u, text, v', hsurround, hbody, rfl, rfl⟩

/-- A procedure in which a conditional statement stands; one of its cases prints a text, one has no
block in its sockets and the other case has a disabled one. -/
def bodiesSample : Workspace :=
  Workspace.edited []
    [.add ⟨"logic_boolean", [("BOOL", .text "TRUE")], [], none, .null, false, []⟩,
      .add ⟨"text", [("TEXT", .text "a")], [], none, .null, false, []⟩,
      .add ⟨"text_print", [], [⟨"TEXT", .value, some 2⟩], none, .null, false, []⟩,
      .add ⟨"text_print", [], [], none, .null, true, []⟩,
      .add ⟨"controls_if", [], [⟨"ELSE", .statement, some 4⟩, ⟨"DO1", .statement, none⟩,
        ⟨"IF0", .value, some 1⟩, ⟨"DO0", .statement, some 3⟩, ⟨"IF1", .value, none⟩], none,
        .text "why", false, []⟩,
      .add ⟨"procedures_defnoreturn", [("NAME", .text "f")], [⟨"STACK", .statement, some 5⟩], none,
        .null, false, []⟩]

theorem render_bodies_bodiesSample :
    (∃ first further other u v t,
      ((standard bodiesSample ⟨.python, false, "  ", .whole 60⟩).render bodiesSample.blocks[4]).run
        (Run.closed Dialect.python.reserved) = .ok (.statement
          "# why\nif True:\n  print('a')\nelif False:\n  pass\nelse:\n  pass\n") t ∧
      (standard bodiesSample ⟨.python, false, "  ", .whole 60⟩).Clauses bodiesSample.blocks[4] 0
        (Run.closed Dialect.python.reserved) (first :: further) u ∧
      (first :: further).length = 2 ∧
      (∀ body ∈ (first :: further).map Prod.snd ++ other.toList, IsBody "  " body) ∧
      ((standard bodiesSample ⟨.python, false, "  ", .whole 60⟩).surround
        (standard bodiesSample ⟨.python, false, "  ", .whole 60⟩).render bodiesSample.blocks[4]
          (conditionalCode first further other)).run v = .ok
            "# why\nif True:\n  print('a')\nelif False:\n  pass\nelse:\n  pass\n" t) ∧
    ∃ (identifier text body : String) (v t : Run),
      ((standard bodiesSample ⟨.python, false, "  ", .whole 60⟩).render bodiesSample.blocks[5]).run
        (Run.closed Dialect.python.reserved) = .ok (.statement "") t ∧
      t = v.define ("%" ++ identifier) text ∧ IsProcedureBody "  " body := by
  have hstart : (Run.closed Dialect.python.reserved).NamesFrom Dialect.python.reserved := ⟨[], rfl⟩
  have hindent : ∀ c ∈ "  ".toList, c = ' ' ∨ c = '\t' := fun _ hc =>
    .inl (List.eq_of_mem_replicate (n := 2) hc)
  have hconditional : bodiesSample.blocks[4] ∈ bodiesSample.blocks := List.getElem_mem _
  have hprocedure : bodiesSample.blocks[5] ∈ bodiesSample.blocks := List.getElem_mem _
  constructor
  · obtain ⟨first, further, other, u, v, text, hclauses, hlength, -, hbodies, hsurround, htext⟩ :=
      (render_bodies rfl ⟨.python, false, "  ", .whole 60⟩
        (List.mem_cons_of_mem _ List.mem_cons_self) hindent hconditional hstart rfl).2.1
        rfl rfl 2 true (by decide) (by decide)
    obtain rfl := Piece.statement.inj htext
    exact ⟨first, further, other, u, v, _, rfl, hclauses, hlength, hbodies, hsurround⟩
  · obtain ⟨identifier, _, _, body, _, text, v, -, hbody, ht, -⟩ :=
      (render_bodies rfl ⟨.python, false, "  ", .whole 60⟩
        (List.mem_cons_of_mem _ List.mem_cons_self) hindent hprocedure hstart rfl).2.2
        rfl (by decide)
    exact ⟨identifier, text, body, v, _, rfl, ht, hbody⟩

end Renderer

end Blockscribe
