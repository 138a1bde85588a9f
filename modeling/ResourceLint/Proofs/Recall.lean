import ResourceLint.Proofs.Outcome
import ResourceLint.Proofs.Sound

/-!
# How inferences remember

Four inferences look into the scope of a module before they start, and put what they find out into
it: those of declared types, of structs and functions written in place, and of signatures. They
differ in where they look (`Memo.slot`) and in what they work out (`Memo.build`). What they do is
the same for all of them (`Memo.Outcome`): they recall what is there, or they work it out and leave
it there.
-/

namespace ResourceLint

open Inference InferM

/-- Where something is remembered: under a name of its own, or under the name drawn for a place. -/
inductive Slot where
  | named (kind : InPlaceKind) (name : String)
  | inPlace (kind : InPlaceKind) (span : Span)
  deriving DecidableEq

def Slot.kind : Slot → InPlaceKind
  | .named kind _ | .inPlace kind _ => kind

def Memo.slot : Memo → Slot
  | .type d => .named .struct d.name
  | .function f => .named .func f.key
  | .struct span _ => .inPlace .struct span
  | .func span _ _ => .inPlace .func span

/-- A function is remembered only if its receiver has a type name. -/
def Memo.isNamed : Memo → Bool
  | .function f => f.receiverType?.isSome
  | _ => true

/-- A type that stands for a name: a wrapper or a struct, or else a signature. -/
def Ty.Defines (name owner : String) : InPlaceKind → Ty → Prop
  | .struct, .wrapper n o _ | .struct, .struct n o _ => n = name ∧ o = owner
  | .func, .func sig => sig.name = name ∧ sig.owner = owner
  | _, _ => False

namespace Scope

variable (sc : Scope) {kind : InPlaceKind} {name owner : String} {t : Ty}

/-- The name under which something is remembered, if it has one. -/
def nameAt : Slot → Option String
  | .named _ name => some name
  | .inPlace kind span => sc.inPlaceName? span kind

/-- What is remembered under a name. -/
def entry (kind : InPlaceKind) (name : String) : Option Ty :=
  match kind with
  | .struct => sc.types.find? name
  | .func => (sc.signatures.find? name).map .func

def recalled? (slot : Slot) : Option Ty :=
  (sc.nameAt slot).bind (sc.entry slot.kind)

def keep (kind : InPlaceKind) (name : String) (t : Ty) : Scope :=
  match kind, t with
  | .struct, t => sc.setType name t
  | .func, .func sig => sc.setSignature name sig
  | .func, _ => sc

theorem recalled?_of_nameAt (slot : Slot) (h : sc.nameAt slot = some name) :
    sc.recalled? slot = sc.entry slot.kind name := by
  rw [recalled?, h, Option.bind_some]

theorem entry_setType (name' : String) (kind' : InPlaceKind) :
    (sc.setType name t).entry kind' name' =
      if kind' = .struct ∧ name' = name then some t else sc.entry kind' name' := by
  cases kind' with
  | struct => simp [entry, setType]
  | func => simp [entry, setType]

theorem entry_dropType (name' : String) (kind' : InPlaceKind) :
    (sc.dropType name).entry kind' name' =
      if kind' = .struct ∧ name' = name then none else sc.entry kind' name' := by
  cases kind' with
  | struct => simp [entry, dropType]
  | func => simp [entry, dropType]

theorem entry_keep {n : String} (h : t.Defines n owner kind) (name' : String)
    (kind' : InPlaceKind) :
    (sc.keep kind name t).entry kind' name' =
      if kind' = kind ∧ name' = name then some t else sc.entry kind' name' := by
  cases kind with
  | struct => exact sc.entry_setType name' kind'
  | func =>
      cases t with
      | func sig =>
          cases kind' with
          | struct => simp [entry, keep, setSignature]
          | func =>
              simp only [entry, keep, setSignature, Table.find?_insert, true_and]
              split <;> rfl
      | _ => exact h.elim

/-- Scopes that differ in no more than the entry under one name. -/
structure SameBut (kind : InPlaceKind) (name : String) (sc sc' : Scope) : Prop where
  id : sc'.id = sc.id
  symbols : sc'.symbols = sc.symbols
  inPlace : sc'.inPlace = sc.inPlace
  entry : ∀ {kind' name'}, ¬ (kind' = kind ∧ name' = name) →
    sc'.entry kind' name' = sc.entry kind' name'

theorem sameBut_setType : sc.SameBut .struct name (sc.setType name t) :=
  ⟨rfl, rfl, rfl, fun h => by rw [entry_setType, if_neg h]⟩

theorem sameBut_dropType : sc.SameBut .struct name (sc.dropType name) :=
  ⟨rfl, rfl, rfl, fun h => by rw [entry_dropType, if_neg h]⟩

theorem sameBut_keep : sc.SameBut kind name (sc.keep kind name t) := by
  cases kind with
  | struct => exact sc.sameBut_setType
  | func =>
      cases t with
      | func sig =>
          have hdefines : (Ty.func sig).Defines sig.name sig.owner .func := ⟨rfl, rfl⟩
          exact ⟨rfl, rfl, rfl, fun h => by rw [entry_keep sc hdefines, if_neg h]⟩
      | _ => exact ⟨rfl, rfl, rfl, fun _ => rfl⟩

theorem SameBut.nameAt {sc sc' : Scope} (h : sc.SameBut kind name sc') (slot : Slot) :
    sc'.nameAt slot = sc.nameAt slot := by
  cases slot with
  | named => rfl
  | inPlace => rw [Scope.nameAt, inPlaceName?, h.inPlace, Scope.nameAt, inPlaceName?]

theorem entry_ofModule {m : Module} (h : Scope.ofModule m = .ok sc) :
    sc.entry kind name = none := by
  obtain ⟨_, _, htypes, hsignatures, _⟩ := Scope.ofModule_eq_ok h
  cases kind with
  | struct => rw [entry, htypes, Table.find?_empty]
  | func => rw [entry, hsignatures, Table.find?_empty, Option.map_none]

end Scope

namespace Session

/-- A session in which the entry for a name is worked out. The name of a type is taken for a simple
type meanwhile. -/
def opened (s : Session) (home : String) (kind : InPlaceKind) (name : String) : Session :=
  match kind with
  | .struct => s.update home (·.setType name (.reference name (some home)))
  | .func => s

/-- The session afterwards. If the entry cannot be told, nothing is kept. -/
def closed (s : Session) (home : String) (kind : InPlaceKind) (name : String) :
    Except InferError Ty → Session
  | .ok t => s.update home (·.keep kind name t)
  | .error _ =>
      match kind with
      | .struct => s.update home (·.dropType name)
      | .func => s

/-- Sessions that differ in no more than the entry under one name in one module. -/
structure SameBut (home : String) (kind : InPlaceKind) (name : String) (s s' : Session) : Prop where
  failed : s'.failed = s.failed
  drawn : s'.drawn = s.drawn
  scope : Option.Rel (Scope.SameBut kind name) (s.scopes.find? home) (s'.scopes.find? home)
  others : ∀ {id}, id ≠ home → s'.scopes.find? id = s.scopes.find? id

namespace SameBut

variable {p : Program} {s s' : Session} {home id : String} {kind : InPlaceKind} {name : String}

theorem refl (s : Session) : s.SameBut home kind name s := by
  refine ⟨rfl, rfl, ?_, fun _ => rfl⟩
  cases s.scopes.find? home with
  | none => exact .none
  | some sc => exact .some ⟨rfl, rfl, rfl, fun _ => rfl⟩

theorem update (s : Session) {change : Scope → Scope}
    (h : ∀ sc : Scope, sc.SameBut kind name (change sc)) :
    s.SameBut home kind name (s.update home change) := by
  refine ⟨failed_update _, drawn_update _, ?_, fun hid => by rw [find?_update, if_neg hid]⟩
  rw [find?_update_self]
  cases s.scopes.find? home with
  | none => exact .none
  | some sc => exact .some (h sc)

theorem opened (s : Session) (home : String) (kind : InPlaceKind) (name : String) :
    s.SameBut home kind name (s.opened home kind name) := by
  cases kind with
  | struct => exact update s fun sc => sc.sameBut_setType
  | func => exact refl s

theorem closed (s : Session) (home : String) (kind : InPlaceKind) (name : String)
    (r : Except InferError Ty) : s.SameBut home kind name (s.closed home kind name r) := by
  cases r with
  | ok t => exact update s fun sc => sc.sameBut_keep
  | error e =>
      cases kind with
      | struct => exact update s fun sc => sc.sameBut_dropType
      | func => exact refl s

/-- Where a scope of the later session comes from. -/
theorem scope_before (h : s.SameBut home kind name s') {sc' : Scope}
    (hsc' : s'.scopes.find? id = some sc') :
    (id ≠ home ∧ s.scopes.find? id = some sc') ∨
      (id = home ∧ ∃ sc, s.scopes.find? home = some sc ∧ sc.SameBut kind name sc') := by
  by_cases hid : id = home
  · subst hid
    have hrel := h.scope
    rw [hsc'] at hrel
    generalize hsc : s.scopes.find? id = found at hrel
    cases hrel with
    | some hsame => exact .inr ⟨rfl, _, rfl, hsame⟩
  · exact .inl ⟨hid, h.others hid ▸ hsc'⟩

/-- What becomes of a scope of the earlier session. -/
theorem scope_after (h : s.SameBut home kind name s') {sc : Scope}
    (hsc : s.scopes.find? id = some sc) :
    (id ≠ home ∧ s'.scopes.find? id = some sc) ∨
      (id = home ∧ ∃ sc', s'.scopes.find? home = some sc' ∧ sc.SameBut kind name sc') := by
  by_cases hid : id = home
  · subst hid
    have hrel := h.scope
    rw [hsc] at hrel
    generalize hsc' : s'.scopes.find? id = found at hrel
    cases hrel with
    | some hsame => exact .inr ⟨rfl, _, rfl, hsame⟩
  · exact .inl ⟨hid, (h.others hid).trans hsc⟩

theorem sound (h : s.SameBut home kind name s') (hs : s.Sound p) : s'.Sound p := by
  refine ⟨fun {id sc'} hsc' => ?_, fun {id e} he => hs.failed (h.failed ▸ he)⟩
  rcases h.scope_before hsc' with ⟨_, hsc⟩ | ⟨rfl, sc, hsc, hsame⟩
  · exact hs.scope hsc
  · rw [hsame.symbols, hsame.id]
    exact hs.scope hsc

theorem within {known : String → Memo → Prop} (h : s.SameBut home kind name s')
    (hs : s.Within known) : s'.Within known := by
  refine ⟨fun {id sc'} hsc' => ?_, fun {id e} he => hs.failed (h.failed ▸ he)⟩
  rcases h.scope_before hsc' with ⟨_, hsc⟩ | ⟨rfl, sc, hsc, hsame⟩
  · exact hs.scope hsc
  · rw [hsame.symbols]
    exact hs.scope hsc

end SameBut

section Entries

variable {s : Session} {home name owner : String} {kind : InPlaceKind} {sc : Scope}

theorem entry_opened (hsc : (s.opened home .struct name).scopes.find? home = some sc) :
    sc.entry .struct name = some (.reference name (some home)) := by
  rw [Session.opened, find?_update_self] at hsc
  obtain ⟨sc₀, _, rfl⟩ := Option.map_eq_some_iff.mp hsc
  rw [Scope.entry_setType, if_pos ⟨rfl, rfl⟩]

theorem entry_closed_ok {t : Ty} (ht : t.Defines name owner kind)
    (hsc : (s.closed home kind name (.ok t)).scopes.find? home = some sc) :
    sc.entry kind name = some t := by
  rw [Session.closed, find?_update_self] at hsc
  obtain ⟨sc₀, _, rfl⟩ := Option.map_eq_some_iff.mp hsc
  rw [Scope.entry_keep sc₀ ht, if_pos ⟨rfl, rfl⟩]

theorem entry_closed_error {e : InferError}
    (hsc : (s.closed home .struct name (.error e)).scopes.find? home = some sc) :
    sc.entry .struct name = none := by
  rw [Session.closed, find?_update_self] at hsc
  obtain ⟨sc₀, _, rfl⟩ := Option.map_eq_some_iff.mp hsc
  rw [Scope.entry_dropType, if_pos ⟨rfl, rfl⟩]

end Entries

end Session

/-- An entry is about to be worked out: there is none under its name so far, or a name is drawn for
it now. -/
inductive Opening (home : String) (s : Session) : Slot → String → Session → Prop
  | known {sc : Scope} {slot : Slot} {name : String} (hsc : s.scopes.find? home = some sc)
      (hname : sc.nameAt slot = some name) (hlacks : sc.entry slot.kind name = none) :
      Opening home s slot name s
  | drawn {sc : Scope} {kind : InPlaceKind} {span : Span} (hsc : s.scopes.find? home = some sc)
      (hnone : sc.inPlaceName? span kind = none) :
      Opening home s (.inPlace kind span) (s.draw kind).1 (s.nameInPlace home span kind)

namespace Opening

variable {p : Program} {home name : String} {s s₀ : Session} {slot : Slot}

theorem sound (h : Opening home s slot name s₀) (hs : s.Sound p) : s₀.Sound p := by
  cases h with
  | known => exact hs
  | drawn => exact hs.nameInPlace home _ _

theorem within {known : String → Memo → Prop} (h : Opening home s slot name s₀)
    (hs : s.Within known) : s₀.Within known := by
  cases h with
  | known => exact hs
  | drawn => exact hs.nameInPlace home _ _

/-- The entry has a name when it is worked out. -/
theorem nameAt (h : Opening home s slot name s₀) :
    ∃ sc, s₀.scopes.find? home = some sc ∧ sc.nameAt slot = some name := by
  cases h with
  | known hsc hname => exact ⟨_, hsc, hname⟩
  | @drawn sc kind span hsc _ =>
      refine ⟨sc.addInPlace span kind (s.draw kind).1, ?_, ?_⟩
      · rw [Session.find?_nameInPlace, if_pos rfl, hsc, Option.map_some]
      · simp [Scope.nameAt, Scope.inPlaceName?, Scope.addInPlace]

theorem name_eq {kind : InPlaceKind} {own : String}
    (h : Opening home s (.named kind own) name s₀) : name = own := by
  cases h with
  | known _ hname => exact (Option.some.inj hname).symm

end Opening

namespace Memo

variable (p : Program) (ask : Ask) (home : String)

/-- Ask for something that may be remembered. -/
def infer : Memo → InferM Ty
  | .type d => declaredType p ask d home
  | .function f => .func <$> declaredSignature p ask f home
  | .struct span fields => inPlaceStruct p ask fields span home
  | .func span params results => inPlaceFunc p ask params results span home

/-- Work it out. Types written in place take the name that was drawn for them. -/
def build (name : String) : Memo → InferM Ty
  | .type d => .wrapper d.name home <$> declaredBody p ask d home
  | .function f =>
      .func <$> signature ask f.key home f.receiverType?.join f.params f.results
  | .struct _ fields => .struct name home <$> fieldTable p ask fields home
  | .func _ params results => .func <$> signature ask name home none params results

/-- What may come of working it out, depending on the answers on the way. -/
def Makes (memo : Memo) (name : String) (t : Ty) : Prop :=
  ∃ ask s s', memo.build p ask home name s = some (.ok t, s')

end Memo

namespace InferM

variable {α β : Type} {p : Program} {home : String} {s s₁ : Session}

theorem map_apply (f : α → β) (x : InferM α) :
    (f <$> x) s = (x s).map fun outcome => (outcome.1.map f, outcome.2) := by
  rw [map_eq_pure_bind, bind_apply]
  rcases x s with _ | ⟨_ | _, _⟩ <;> rfl

theorem ends_map_iff (f : α → β) {x : Nat → InferM α} {s' : Session} {r : Except InferError β} :
    Ends (fun depth => f <$> x depth) s r s' ↔ ∃ q, Ends x s q s' ∧ r = q.map f := by
  refine (Ends.outcome_iff fun depth => map_apply f (x depth)).trans ⟨?_, ?_⟩
  · rintro ⟨q, s₁, hq, heq⟩
    cases heq
    exact ⟨q, hq, rfl⟩
  · rintro ⟨q, hq, rfl⟩
    exact ⟨q, s', hq, rfl⟩

theorem scope_bind_error {f : Scope → InferM α} {e : InferError}
    (h : s.enter p home = (.error e, s₁)) : (scope p home >>= f) s = some (.error e, s₁) := by
  rw [bind_apply, scope_apply, h]

theorem scope_bind_ok {f : Scope → InferM α} {sc : Scope} (h : s.enter p home = (.ok sc, s₁)) :
    (scope p home >>= f) s = f sc s₁ := by
  rw [bind_apply, scope_apply, h]

theorem scope_bind_cases {f : Scope → InferM α} {s' : Session} {r : Except InferError α}
    (h : (scope p home >>= f) s = some (r, s')) :
    (∃ e, s.enter p home = (.error e, s') ∧ r = .error e) ∨
      ∃ sc s₁, s.enter p home = (.ok sc, s₁) ∧ f sc s₁ = some (r, s') := by
  rcases henter : s.enter p home with ⟨e | sc, s₁⟩
  · rw [scope_bind_error henter] at h
    cases h
    exact .inl ⟨e, rfl, rfl⟩
  · rw [scope_bind_ok henter] at h
    exact .inr ⟨sc, s₁, rfl, h⟩

end InferM

namespace Inference

variable {p : Program} {ask : Ask} {home : String} {s s' : Session} {sc : Scope}

theorem inPlaceName_known (h : s.Entered home sc) {span : Span} {kind : InPlaceKind} {name : String}
    (hname : sc.inPlaceName? span kind = some name) :
    inPlaceName p span kind home s = some (.ok (name, true), s) := by
  unfold inPlaceName
  rw [scope_bind_ok h.enter_eq, hname]
  rfl

theorem inPlaceName_drawn (h : s.Entered home sc) {span : Span} {kind : InPlaceKind}
    (hnone : sc.inPlaceName? span kind = none) :
    inPlaceName p span kind home s =
      some (.ok ((s.draw kind).1, false), s.nameInPlace home span kind) := by
  unfold inPlaceName
  rw [scope_bind_ok h.enter_eq, hnone]
  rfl

/-- A type written in place that is not remembered gets a name, or has one that nothing is under. -/
theorem inPlaceName_opening (h : s.Entered home sc) {span : Span} {kind : InPlaceKind}
    (hnone : sc.recalled? (.inPlace kind span) = none) :
    ∃ name known s₀ sc₀, Opening home s (.inPlace kind span) name s₀ ∧ s₀.Entered home sc₀ ∧
      (known = true → sc₀.entry kind name = none) ∧
      ∀ p, inPlaceName p span kind home s = some (.ok (name, known), s₀) := by
  cases hname : sc.inPlaceName? span kind with
  | some name =>
      have hentry : sc.entry kind name = none :=
        (sc.recalled?_of_nameAt (.inPlace kind span) hname).symm.trans hnone
      exact ⟨name, true, s, sc, .known h.scope hname hentry, h, fun _ => hentry,
        fun _ => inPlaceName_known h hname⟩
  | none =>
      exact ⟨_, false, _, _, .drawn h.scope hname, h.nameInPlace span kind, nofun,
        fun _ => inPlaceName_drawn h hname⟩

/-- No fields when there is no struct of that name. -/
def fieldsIfKnown : Except InferError (Table Ty) → Except InferError (Table Ty)
  | .ok fields => .ok fields
  | .error e => if e.isUnknownStruct then .ok ∅ else .error e

theorem declaredFieldsIfAny_apply (name : String) :
    declaredFieldsIfAny p ask name home s =
      (declaredFields p ask name home s).map fun outcome =>
        (fieldsIfKnown outcome.1, outcome.2) := by
  simp only [declaredFieldsIfAny, bind_apply, attempt]
  rcases declaredFields p ask name home s with _ | ⟨e | fields, s₁⟩
  · rfl
  · cases e <;> rfl
  · rfl

theorem declaredFieldsIfAny_cases {name : String} {r : Except InferError (Table Ty)}
    (h : declaredFieldsIfAny p ask name home s = some (r, s')) :
    ∃ q, declaredFields p ask name home s = some (q, s') ∧ r = fieldsIfKnown q := by
  rw [declaredFieldsIfAny_apply] at h
  obtain ⟨⟨q, s₁⟩, hq, heq⟩ := Option.map_eq_some_iff.mp h
  cases heq
  exact ⟨q, hq, rfl⟩

theorem signature_ok {name : String} {receiver : Option String} {params results : List FieldGroup}
    {sig : Signature} (h : signature ask name home receiver params results s = some (.ok sig, s')) :
    sig.name = name ∧ sig.owner = home ∧ sig.receiver = receiver := by
  rcases bind_eq_some.mp h with ⟨args, s₁, _, h⟩ | ⟨e, _, he⟩
  · rcases bind_eq_some.mp h with ⟨rs, s₂, _, h⟩ | ⟨e, _, he⟩
    · cases h
      exact ⟨rfl, rfl, rfl⟩
    · cases he
  · cases he

/-- A function that the module declares is the one that its key stands for. -/
theorem namedSignature_eq {symbols : Symbols} {key : String} {f : FuncDecl} (hs : s.Sound p)
    (hsymbols : p.symbols home = .ok symbols) (hf : symbols.functions.find? key = some f) :
    namedSignature p ask key home s = declaredSignature p ask f home s := by
  obtain ⟨m, _, hm⟩ := Program.symbols_eq_ok hsymbols
  obtain ⟨_, receiver, hreceiver, rfl⟩ := Symbols.function_of_find? hm hf
  simp only [namedSignature, declaredSignature, hreceiver]
  rcases henter : s.enter p home with ⟨e | sc, s₁⟩
  · rw [scope_bind_error henter, scope_bind_error henter]
  · rw [hs.symbols_of_enter henter] at hsymbols
    cases hsymbols
    rw [scope_bind_ok henter, scope_bind_ok henter]
    cases hsig : sc.signatures.find? (QualifiedName.method receiver f.name) with
    | some sig => rfl
    | none =>
        simp only [hf, hreceiver]
        rw [scope_bind_ok (Session.entered_of_enter henter).enter_eq, hsig]

end Inference

namespace Memo

variable {p : Program} {ask : Ask} {home name : String} {s s₀ s₁ s' : Session} {sc : Scope}
  {memo : Memo} {t : Ty}

theorem build_defines (hopen : Opening home s memo.slot name s₀)
    (h : memo.build p ask home name s₁ = some (.ok t, s')) :
    t.Defines name home memo.slot.kind := by
  cases memo with
  | type d =>
      rw [build, map_apply] at h
      obtain ⟨⟨e | body, _⟩, _, heq⟩ := Option.map_eq_some_iff.mp h <;> cases heq
      exact ⟨hopen.name_eq.symm, rfl⟩
  | function f =>
      rw [build, map_apply] at h
      obtain ⟨⟨e | sig, _⟩, hsig, heq⟩ := Option.map_eq_some_iff.mp h <;> cases heq
      rw [show name = f.key from hopen.name_eq]
      obtain ⟨hname, howner, _⟩ := signature_ok hsig
      exact ⟨hname, howner⟩
  | struct span fields =>
      rw [build, map_apply] at h
      obtain ⟨⟨e | table, _⟩, _, heq⟩ := Option.map_eq_some_iff.mp h <;> cases heq
      exact ⟨rfl, rfl⟩
  | func span params results =>
      rw [build, map_apply] at h
      obtain ⟨⟨e | sig, _⟩, hsig, heq⟩ := Option.map_eq_some_iff.mp h <;> cases heq
      obtain ⟨hname, howner, _⟩ := signature_ok hsig
      exact ⟨hname, howner⟩

theorem Makes.defines (h : memo.Makes p home name t) (hopen : Opening home s memo.slot name s₀) :
    t.Defines name home memo.slot.kind := by
  obtain ⟨ask, s₁, s', h⟩ := h
  exact build_defines hopen h

/-- The scope of the module comes first. -/
theorem infer_eq_scope_bind (p : Program) (ask : Ask) (home : String)
    (hmemo : memo.isNamed = true) :
    ∃ rest : Scope → InferM Ty, memo.infer p ask home = scope p home >>= rest := by
  cases memo with
  | type d => exact ⟨_, rfl⟩
  | function f =>
      obtain ⟨receiver, hreceiver⟩ := Option.isSome_iff_exists.mp hmemo
      simp only [infer, declaredSignature, hreceiver, map_bind]
      exact ⟨_, rfl⟩
  | struct span fields =>
      simp only [infer, inPlaceStruct, inPlaceName, bind_assoc]
      exact ⟨_, rfl⟩
  | func span params results =>
      simp only [infer, inPlaceFunc, inPlaceName, bind_assoc]
      exact ⟨_, rfl⟩

theorem infer_error (hmemo : memo.isNamed = true) {e : InferError}
    (h : s.enter p home = (.error e, s₁)) : memo.infer p ask home s = some (.error e, s₁) := by
  obtain ⟨rest, hrest⟩ := infer_eq_scope_bind p ask home hmemo
  rw [hrest, scope_bind_error h]

/-- The module may just as well have been entered before. -/
theorem infer_of_enter (hmemo : memo.isNamed = true) (h : s.enter p home = (.ok sc, s₁)) :
    memo.infer p ask home s = memo.infer p ask home s₁ := by
  obtain ⟨rest, hrest⟩ := infer_eq_scope_bind p ask home hmemo
  rw [hrest, scope_bind_ok h, scope_bind_ok (Session.entered_of_enter h).enter_eq]

theorem infer_hit (hmemo : memo.isNamed = true) (h : s.Entered home sc)
    (ht : sc.recalled? memo.slot = some t) : memo.infer p ask home s = some (.ok t, s) := by
  cases memo with
  | type d =>
      have hd : sc.types.find? d.name = some t := ht
      simp only [infer, declaredType]
      rw [scope_bind_ok h.enter_eq, hd]
      rfl
  | function f =>
      obtain ⟨receiver, hreceiver⟩ := Option.isSome_iff_exists.mp hmemo
      have hkey := f.key_of_receiver hreceiver
      obtain ⟨sig, hsig, rfl⟩ : ∃ sig, sc.signatures.find? f.key = some sig ∧ .func sig = t :=
        Option.map_eq_some_iff.mp ht
      rw [hkey] at hsig
      simp only [infer, declaredSignature, hreceiver, map_bind]
      rw [scope_bind_ok h.enter_eq, hsig]
      rfl
  | struct span fields =>
      obtain ⟨name, hname, hentry⟩ : ∃ name, sc.inPlaceName? span .struct = some name ∧
          sc.types.find? name = some t := Option.bind_eq_some_iff.mp ht
      simp only [infer, inPlaceStruct]
      rw [bind_apply, inPlaceName_known h hname]
      dsimp only
      rw [scope_bind_ok h.enter_eq, hentry]
      rfl
  | func span params results =>
      obtain ⟨name, hname, hentry⟩ : ∃ name, sc.inPlaceName? span .func = some name ∧
          sc.entry .func name = some t := Option.bind_eq_some_iff.mp ht
      obtain ⟨sig, hsig, rfl⟩ := Option.map_eq_some_iff.mp hentry
      simp only [infer, inPlaceFunc]
      rw [bind_apply, inPlaceName_known h hname]
      dsimp only
      rw [scope_bind_ok h.enter_eq, hsig]
      rfl

/-- The outcome of working out an entry, with the session as it is left behind. -/
def settled (memo : Memo) (p : Program) (ask : Ask) (home name : String) (s₀ : Session) :
    Option (Except InferError Ty × Session) :=
  (memo.build p ask home name (s₀.opened home memo.slot.kind name)).map fun outcome =>
    (outcome.1, outcome.2.closed home memo.slot.kind name outcome.1)

theorem declaredType_miss {d : TypeDecl} (h : s.Entered home sc)
    (hnone : sc.types.find? d.name = none) :
    declaredType p ask d home s = (Memo.type d).settled p ask home d.name s := by
  simp only [declaredType, settled, build, map_apply, slot, Slot.kind, Session.opened]
  rw [scope_bind_ok h.enter_eq, hnone]
  simp only [bind_apply, updateScope_apply, attempt]
  generalize declaredBody p ask d home _ = outcome
  rcases outcome with _ | ⟨_ | _, _⟩ <;> rfl

theorem declaredSignature_miss {f : FuncDecl} {receiver : Option String}
    (hreceiver : f.receiverType? = some receiver) (h : s.Entered home sc)
    (hnone : sc.signatures.find? f.key = none) :
    (.func <$> declaredSignature p ask f home) s =
      (Memo.function f).settled p ask home f.key s := by
  have hjoin : f.receiverType?.join = receiver := by rw [hreceiver, Option.join_some]
  have hkey := f.key_of_receiver hreceiver
  rw [hkey] at hnone
  simp only [declaredSignature, settled, build, map_apply, slot, Slot.kind, Session.opened, hjoin,
    hkey]
  rw [hreceiver]
  dsimp only
  rw [scope_bind_ok h.enter_eq, hnone]
  simp only [bind_apply, updateScope_apply]
  generalize signature ask _ home receiver f.params f.results s = outcome
  rcases outcome with _ | ⟨_ | _, _⟩ <;> rfl

theorem inPlaceStruct_miss {span : Span} {fields : List FieldGroup} {known : Bool}
    (hname : inPlaceName p span .struct home s = some (.ok (name, known), s₀))
    (h : s₀.Entered home sc) (hnone : known = true → sc.types.find? name = none) :
    inPlaceStruct p ask fields span home s =
      (Memo.struct span fields).settled p ask home name s₀ := by
  simp only [inPlaceStruct, settled, build, map_apply, slot, Slot.kind, Session.opened]
  rw [bind_apply, hname]
  dsimp only
  rw [scope_bind_ok h.enter_eq]
  generalize sc.types.find? name = found at hnone
  split
  · exact absurd (hnone rfl) (Option.some_ne_none _)
  · simp only [bind_apply, updateScope_apply, attempt]
    generalize fieldTable p ask fields home _ = outcome
    rcases outcome with _ | ⟨_ | _, _⟩ <;> rfl

theorem inPlaceFunc_miss {span : Span} {params results : List FieldGroup} {known : Bool}
    (hname : inPlaceName p span .func home s = some (.ok (name, known), s₀))
    (h : s₀.Entered home sc) (hnone : known = true → sc.signatures.find? name = none) :
    inPlaceFunc p ask params results span home s =
      (Memo.func span params results).settled p ask home name s₀ := by
  simp only [inPlaceFunc, settled, build, map_apply, slot, Slot.kind, Session.opened]
  rw [bind_apply, hname]
  dsimp only
  rw [scope_bind_ok h.enter_eq]
  generalize sc.signatures.find? name = found at hnone
  split
  · exact absurd (hnone rfl) (Option.some_ne_none _)
  · simp only [bind_apply, updateScope_apply]
    generalize signature ask name home none params results s₀ = outcome
    rcases outcome with _ | ⟨_ | _, _⟩ <;> rfl

theorem infer_miss (hmemo : memo.isNamed = true) (h : s.Entered home sc)
    (hnone : sc.recalled? memo.slot = none) :
    ∃ name s₀, Opening home s memo.slot name s₀ ∧
      ∀ p ask, memo.infer p ask home s = memo.settled p ask home name s₀ := by
  cases memo with
  | type d => exact ⟨d.name, s, .known h.scope rfl hnone, fun _ _ => declaredType_miss h hnone⟩
  | function f =>
      obtain ⟨receiver, hreceiver⟩ := Option.isSome_iff_exists.mp hmemo
      exact ⟨f.key, s, .known h.scope rfl hnone,
        fun _ _ => declaredSignature_miss hreceiver h (Option.map_eq_none_iff.mp hnone)⟩
  | struct span fields =>
      obtain ⟨name, known, s₀, sc₀, hopen, h₀, hentry, hname⟩ := inPlaceName_opening h hnone
      exact ⟨name, s₀, hopen, fun p _ => inPlaceStruct_miss (hname p) h₀ hentry⟩
  | func span params results =>
      obtain ⟨name, known, s₀, sc₀, hopen, h₀, hentry, hname⟩ := inPlaceName_opening h hnone
      exact ⟨name, s₀, hopen, fun p _ =>
        inPlaceFunc_miss (hname p) h₀ fun hknown => Option.map_eq_none_iff.mp (hentry hknown)⟩

/-- What asking for something that may be remembered comes to. -/
inductive Outcome (memo : Memo) (p : Program) (ask : Ask) (home : String) (s : Session) :
    Except InferError Ty → Session → Prop
  | unknown {e : InferError} {s' : Session} (henter : s.enter p home = (.error e, s')) :
      Outcome memo p ask home s (.error e) s'
  | recalled {sc : Scope} {s₁ : Session} {t : Ty} (henter : s.enter p home = (.ok sc, s₁))
      (ht : sc.recalled? memo.slot = some t) : Outcome memo p ask home s (.ok t) s₁
  | built {sc : Scope} {s₁ s₀ s₂ : Session} {name : String} {r : Except InferError Ty}
      (henter : s.enter p home = (.ok sc, s₁)) (hopen : Opening home s₁ memo.slot name s₀)
      (hbuild : memo.build p ask home name (s₀.opened home memo.slot.kind name) = some (r, s₂)) :
      Outcome memo p ask home s r (s₂.closed home memo.slot.kind name r)

theorem outcome (hmemo : memo.isNamed = true) {r : Except InferError Ty}
    (h : memo.infer p ask home s = some (r, s')) : memo.Outcome p ask home s r s' := by
  rcases henter : s.enter p home with ⟨e | sc, s₁⟩
  · rw [infer_error hmemo henter] at h
    cases h
    exact .unknown henter
  · have hentered := Session.entered_of_enter henter
    rw [infer_of_enter hmemo henter] at h
    cases ht : sc.recalled? memo.slot with
    | some t =>
        rw [infer_hit hmemo hentered ht] at h
        cases h
        exact .recalled henter ht
    | none =>
        obtain ⟨name, s₀, hopen, hinfer⟩ := infer_miss hmemo hentered ht
        rw [hinfer p ask] at h
        obtain ⟨⟨r', s₂⟩, hbuild, heq⟩ := Option.map_eq_some_iff.mp h
        cases heq
        exact .built henter hopen hbuild

end Memo

end ResourceLint
