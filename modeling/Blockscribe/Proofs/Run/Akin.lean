/-
Runs whose texts are akin.

* `Kin.Stored`: relations that hold of identifiers and of helper routines.
* `Run.Akin`: states with the same identifiers, and akin definitions under the same keys.
* `Running.Shadows`: whatever one computation gives, the other gives something akin from every akin
  state. It is kept when one computation follows another.
* `Plan.Akin.shadows`: akin plans are carried out alike, if their questions are answered alike.
-/
import Blockscribe.Proofs.Plan.Akin
import Blockscribe.Proofs.Run.Definitions

namespace Blockscribe

variable {k : Kin} {reserved : List String} {indent indent' : String}

/-- Relations that hold of every identifier, and of the helper routines that are written with it. -/
structure Kin.Stored (k : Kin) (indent indent' : String) : Prop where
  name {id : String} : isIdentifier id = true → k.name id
  helper (key : String) {id : String} {lines : List String} : IsRoutine lines →
    isIdentifier id = true → k.definition key (Definitions.helperText indent id lines)
      (Definitions.helperText indent' id lines)

/-! ### States -/

/-- Definitions that are written under the same key. -/
def Kin.Entry (k : Kin) (e e' : String × String) : Prop :=
  e'.1 = e.1 ∧ k.definition e.1 e.2 e'.2

lemma Assoc.forall₂_put {entries entries' : List (String × String)} {key text text' : String}
    (h : List.Forall₂ k.Entry entries entries') (htext : k.definition key text text') :
    List.Forall₂ k.Entry (put entries key text) (put entries' key text') := by
  induction h with
  | nil => exact .cons ⟨rfl, htext⟩ .nil
  | @cons e e' rest rest' he hrest ih =>
      obtain ⟨name, old⟩ := e
      obtain ⟨name', old'⟩ := e'
      obtain ⟨rfl, hold⟩ := he
      rw [put, put]
      by_cases hname : name' = key
      · rw [if_pos hname, if_pos hname]
        exact .cons ⟨rfl, hname ▸ htext⟩ hrest
      · rw [if_neg hname, if_neg hname]
        exact .cons ⟨rfl, hold⟩ ih

namespace Run

variable {s s' : Run}

/-- States with the same identifiers, and akin definitions under the same keys. -/
structure Akin (k : Kin) (s s' : Run) : Prop where
  names : s'.names = s.names
  helpers : s'.definitions.helpers = s.definitions.helpers
  identifiers : ∀ e ∈ s.definitions.helpers, isIdentifier e.2 = true
  entries : List.Forall₂ k.Entry s.definitions.entries s'.definitions.entries

/-- Identifiers that are issued make no difference. -/
lemma Akin.of_definitions {t t' : Run} (h : s.Akin k s') (hnames : t'.names = t.names)
    (ht : t.definitions = s.definitions) (ht' : t'.definitions = s'.definitions) : t.Akin k t' := by
  refine ⟨hnames, ?_, ?_, ?_⟩
  · rw [ht, ht']
    exact h.helpers
  · rw [ht]
    exact h.identifiers
  · rw [ht, ht']
    exact h.entries

lemma Akin.named (h : s.Akin k s') (name : String) (kind : NameKind) :
    (s'.named name kind).1 = (s.named name kind).1 ∧
      (s.named name kind).2.Akin k (s'.named name kind).2 := by
  refine ⟨?_, h.of_definitions ?_ (definitions_named s name kind) (definitions_named s' name kind)⟩
  · show (s'.names.named name kind).1 = (s.names.named name kind).1
    rw [h.names]
  · rw [names_named, names_named, h.names]

lemma Akin.fresh (h : s.Akin k s') (hint : String) (kind : NameKind) :
    (s'.fresh hint kind).1 = (s.fresh hint kind).1 ∧
      (s.fresh hint kind).2.Akin k (s'.fresh hint kind).2 := by
  refine ⟨?_, h.of_definitions ?_ (definitions_fresh s hint kind) (definitions_fresh s' hint kind)⟩
  · show (s'.names.fresh hint).1 = (s.names.fresh hint).1
    rw [h.names]
  · rw [names_fresh, names_fresh, h.names]

lemma Akin.define (h : s.Akin k s') {key text text' : String} (htext : k.definition key text text') :
    (s.define key text).Akin k (s'.define key text') :=
  ⟨h.names, h.helpers, h.identifiers, Assoc.forall₂_put h.entries htext⟩

/-- A helper routine gets the same identifier, and it is written if it is new. -/
lemma Akin.provide (h : s.Akin k s') (hk : k.Stored indent indent') (key : String)
    {lines : List String} (hlines : IsRoutine lines) :
    (s'.provide indent' key lines).1 = (s.provide indent key lines).1 ∧
      isIdentifier (s.provide indent key lines).1 = true ∧
      (s.provide indent key lines).2.Akin k (s'.provide indent' key lines).2 := by
  have hsame : s'.definitions.helper? key = s.definitions.helper? key := by
    rw [Definitions.helper?, Definitions.helper?, h.helpers]
  cases hhelper : s.definitions.helper? key with
  | some id =>
      obtain ⟨before, after, hsplit, -⟩ := List.lookup_eq_some_iff.mp hhelper
      have hmem : (key, id) ∈ s.definitions.helpers := by
        rw [hsplit]
        exact List.mem_append_right _ List.mem_cons_self
      rw [provide_of_known hhelper, provide_of_known (hsame.trans hhelper)]
      exact ⟨rfl, h.identifiers _ hmem, h⟩
  | none =>
      obtain ⟨hid, hnames, hdefinitions⟩ := provide_of_new hhelper indent lines
      obtain ⟨hid', hnames', hdefinitions'⟩ :=
        provide_of_new (hsame.trans hhelper) indent' lines
      have hchoose : s'.names.choose key = s.names.choose key := by rw [h.names]
      have hlegal := NameTable.isIdentifier_choose s.names key
      refine ⟨by rw [hid, hid', hchoose], hid ▸ hlegal, ?_, ?_, ?_, ?_⟩
      · rw [hnames, hnames', h.names]
      · rw [hdefinitions, hdefinitions', hchoose]
        exact congrArg (List.cons (key, s.names.choose key)) h.helpers
      · rw [hdefinitions]
        exact List.forall_mem_cons.mpr ⟨hlegal, h.identifiers⟩
      · rw [hdefinitions, hdefinitions', hchoose]
        exact Assoc.forall₂_put h.entries (hk.helper key hlines hlegal)

end Run

/-! ### Computations in a run -/

namespace Running

variable {α β γ δ : Type} {R : α → β → Prop} {T : γ → δ → Prop} {m : Running α} {m' : Running β}

/-- Whatever the first computation gives, the second gives something related from every akin state,
and the states are akin again. -/
def Shadows (k : Kin) (reserved : List String) (R : α → β → Prop) (m : Running α)
    (m' : Running β) : Prop :=
  ∀ s s' : Run, s.NamesFrom reserved → s.Akin k s' → ∀ a t, m.run s = .ok a t →
    ∃ a' t', m'.run s' = .ok a' t' ∧ R a a' ∧ t.NamesFrom reserved ∧ t.Akin k t'

lemma shadows_pure {a : α} {a' : β} (h : R a a') : Shadows k reserved R (pure a) (pure a') := by
  intro s s' hs hakin b t hrun
  obtain ⟨rfl, rfl⟩ := EStateM.Result.ok.inj hrun
  exact ⟨a', s', rfl, h, hs, hakin⟩

lemma shadows_throw (fault : Fault) : Shadows k reserved R (throw fault) m' :=
  fun _ _ _ _ _ _ hrun => nomatch hrun

lemma Shadows.bind {f : α → Running γ} {f' : β → Running δ} (hm : Shadows k reserved R m m')
    (hf : ∀ a a', R a a' → Shadows k reserved T (f a) (f' a')) :
    Shadows k reserved T (m >>= f) (m' >>= f') := by
  intro s s' hs hakin b t hrun
  obtain ⟨a, s₁, hfirst, hrest⟩ := exists_of_run_bind hrun
  obtain ⟨a', s₁', hfirst', hR, hs₁, hakin₁⟩ := hm s s' hs hakin a s₁ hfirst
  obtain ⟨b', t', hrest', hT, ht, hakin'⟩ := hf a a' hR s₁ s₁' hs₁ hakin₁ b t hrest
  refine ⟨b', t', ?_, hT, ht, hakin'⟩
  rw [EStateM.run_bind, hfirst']
  exact hrest'

lemma Shadows.mono {T : α → β → Prop} (h : Shadows k reserved R m m') (hRT : ∀ a a', R a a' → T a a') :
    Shadows k reserved T m m' := by
  intro s s' hs hakin a t hrun
  obtain ⟨a', t', hrun', hR, ht, hakin'⟩ := h s s' hs hakin a t hrun
  exact ⟨a', t', hrun', hRT a a' hR, ht, hakin'⟩

lemma shadows_ofExcept {e : Except Fault α} {e' : Except Fault β}
    (h : ∀ a, e = .ok a → ∃ a', e' = .ok a' ∧ R a a') :
    Shadows k reserved R (ofExcept e) (ofExcept e') := by
  cases e with
  | error fault => exact shadows_throw fault
  | ok a =>
      obtain ⟨a', rfl, hR⟩ := h a rfl
      exact shadows_pure hR

/-- What both computations read is the same. -/
lemma shadows_same (e : Except Fault α) :
    Shadows k reserved (fun a a' => a = a' ∧ e = .ok a) (ofExcept e) (ofExcept e) :=
  shadows_ofExcept fun a h => ⟨a, h, rfl, h⟩

lemma shadows_change {f : Run → α × Run} {f' : Run → β × Run}
    (h : ∀ s s' : Run, s.NamesFrom reserved → s.Akin k s' →
      R (f s).1 (f' s').1 ∧ (f s).2.NamesFrom reserved ∧ (f s).2.Akin k (f' s').2) :
    Shadows k reserved R (change f) (change f') := by
  intro s s' hs hakin a t hrun
  obtain ⟨rfl, rfl⟩ := EStateM.Result.ok.inj hrun
  exact ⟨(f' s').1, (f' s').2, rfl, h s s' hs hakin⟩

lemma shadows_named (name : String) (kind : NameKind) :
    Shadows k reserved (fun id id' => id' = id ∧ isIdentifier id = true) (named name kind)
      (named name kind) := by
  refine shadows_change fun s s' hs hakin => ?_
  obtain ⟨hid, hnext⟩ := hakin.named name kind
  exact ⟨⟨hid, (Run.legal_named hs name kind).2⟩, (Run.grows_named hs name kind).namesFrom, hnext⟩

lemma shadows_fresh (hint : String) (kind : NameKind) :
    Shadows k reserved (fun id id' => id' = id ∧ isIdentifier id = true) (fresh hint kind)
      (fresh hint kind) := by
  refine shadows_change fun s s' hs hakin => ?_
  obtain ⟨hid, hnext⟩ := hakin.fresh hint kind
  exact ⟨⟨hid, NameTable.isIdentifier_choose s.names hint⟩,
    (Run.grows_fresh hs hint kind).namesFrom, hnext⟩

lemma shadows_provide (hk : k.Stored indent indent') (key : String) {lines : List String}
    (hlines : IsRoutine lines) :
    Shadows k reserved (fun id id' => id' = id ∧ isIdentifier id = true)
      (change fun s => s.provide indent key lines)
      (change fun s => s.provide indent' key lines) := by
  refine shadows_change fun s s' hs hakin => ?_
  obtain ⟨hid, hlegal, hnext⟩ := hakin.provide hk key hlines
  exact ⟨⟨hid, hlegal⟩, (Run.grows_provide hs indent key lines).namesFrom, hnext⟩

lemma shadows_define {key text text' : String} (h : k.definition key text text') :
    Shadows k reserved (fun _ _ => True) (define key text) (define key text') :=
  shadows_change fun _ _ hs hakin =>
    ⟨trivial, (Run.grows_define hs key text).namesFrom, hakin.define h⟩

lemma shadows_mapM {ι : Type} {f : ι → Running α} {f' : ι → Running β} {l : List ι}
    (h : ∀ i ∈ l, Shadows k reserved R (f i) (f' i)) :
    Shadows k reserved (List.Forall₂ R) (l.mapM f) (l.mapM f') := by
  induction l with
  | nil => exact shadows_pure .nil
  | cons i rest ih =>
      rw [List.mapM_cons, List.mapM_cons]
      refine (h i List.mem_cons_self).bind fun a a' hR => ?_
      refine (ih fun j hj => h j (List.mem_cons_of_mem i hj)).bind fun as as' hRs => ?_
      exact shadows_pure (.cons hR hRs)

end Running

/-! ### Plans -/

namespace Plan

variable {α β : Type} {R : α → β → Prop} {p : Plan α} {p' : Plan β} {services services' : Services}

/-- **Akin plans are carried out alike**, if their questions are answered alike. -/
theorem Akin.shadows (h : Akin k R p p') (hk : k.Stored indent indent')
    (hexpression : ∀ socket required default, k.part default default →
      Running.Shadows k reserved k.part (services.expression socket required default)
        (services'.expression socket required default))
    (hstatements : ∀ socket, Running.Shadows k reserved k.body (services.statements socket)
      (services'.statements socket))
    (hsurround : ∀ code code', k.lines code code' → Running.Shadows k reserved k.framed
      (services.surround code) (services'.surround code')) :
    Running.Shadows k reserved R (p.run indent services) (p'.run indent' services') := by
  induction h with
  | done hR => exact Running.shadows_pure hR
  | fail => exact Running.shadows_throw _
  | expression hdefault _ ih => exact (hexpression _ _ _ hdefault).bind ih
  | statements _ ih => exact (hstatements _).bind ih
  | identifier _ ih =>
      refine (Running.shadows_named _ _).bind fun id _ hid => ?_
      obtain ⟨rfl, hlegal⟩ := hid
      exact ih _ (hk.name hlegal)
  | fresh _ ih =>
      refine (Running.shadows_fresh _ _).bind fun id _ hid => ?_
      obtain ⟨rfl, hlegal⟩ := hid
      exact ih _ (hk.name hlegal)
  | helper hlines _ ih =>
      refine (Running.shadows_provide hk _ hlines).bind fun id _ hid => ?_
      obtain ⟨rfl, hlegal⟩ := hid
      exact ih _ (hk.name hlegal)
  | define htext _ ih => exact (Running.shadows_define htext).bind fun _ _ _ => ih
  | surround hcode _ ih => exact (hsurround _ _ hcode).bind ih

end Plan

end Blockscribe
