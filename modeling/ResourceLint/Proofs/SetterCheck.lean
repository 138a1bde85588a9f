import ResourceLint.Proofs.Depth
import ResourceLint.Proofs.Occurrence

/-!
# What a check finds

The findings about a resource, said without walking and without depths. Each lifecycle function
contributes to the report in its turn, and so does each outermost call of `Set` on the resource
data within a function; the session is handed on from one to the next. A check that comes to an end
has exactly these findings and never fails.
-/

namespace ResourceLint

open InferM

/-- The contributions of things looked at one after the other. -/
inductive InTurn {α : Type} (contributes : α → Session → Report → Session → Prop) :
    List α → Session → Report → Session → Prop
  | nil (s : Session) : InTurn contributes [] s [] s
  | cons {a : α} {rest : List α} {s s₁ s' : Session} {first others : Report}
      (h : contributes a s first s₁) (hrest : InTurn contributes rest s₁ others s') :
      InTurn contributes (a :: rest) s (first ++ others) s'

/-- The same with nothing contributed. -/
inductive InSilence {α : Type} (contributes : α → Session → Report → Session → Prop) :
    List α → Session → Session → Prop
  | nil (s : Session) : InSilence contributes [] s s
  | cons {a : α} {rest : List α} {s s₁ s' : Session} (h : contributes a s [] s₁)
      (hrest : InSilence contributes rest s₁ s') : InSilence contributes (a :: rest) s s'

theorem inTurn_nil_iff {α : Type} {contributes : α → Session → Report → Session → Prop}
    {as : List α} {s s' : Session} :
    InTurn contributes as s [] s' ↔ InSilence contributes as s s' := by
  constructor
  · intro h
    generalize hreport : ([] : Report) = report at h
    induction h with
    | nil s => exact .nil s
    | cons hfirst _ ih =>
        obtain ⟨rfl, rfl⟩ := List.append_eq_nil_iff.mp hreport.symm
        exact .cons hfirst (ih rfl)
  · intro h
    induction h with
    | nil s => exact .nil s
    | cons hfirst _ ih => exact .cons hfirst ih

/-- The parameter that holds the resource data: the first of two or the second of three. -/
def FuncDecl.HolderIs (f : FuncDecl) (holder : Option String) : Prop :=
  (∃ last, f.parameters = [holder, last]) ∨ ∃ first last, f.parameters = [first, holder, last]

/-- A call of `holder.Set`, with any number of arguments. -/
inductive Expr.CallsSet (holder : String) : Expr → Prop
  | call (span outer inner : Span) (binding : Option Binding) (args : List Expr) :
      CallsSet holder
        ⟨span, .call ⟨outer, .selector ⟨inner, .ident holder binding⟩ "Set"⟩ args⟩

theorem Expr.isSetter_iff {holder : String} {fn : Expr} :
    fn.isSetter holder = true ↔
      ∃ outer inner binding, fn = ⟨outer, .selector ⟨inner, .ident holder binding⟩ "Set"⟩ := by
  constructor
  · intro h
    obtain ⟨outer, node⟩ := fn
    cases node with
    | selector x sel =>
        obtain ⟨inner, node⟩ := x
        simp only [isSetter, Bool.and_eq_true, decide_eq_true_eq] at h
        obtain ⟨rfl, hholder⟩ := h
        cases node with
        | ident name binding =>
            cases hholder
            exact ⟨outer, inner, binding, rfl⟩
        | _ => cases hholder
    | _ => cases h
  · rintro ⟨outer, inner, binding, rfl⟩
    simp [isSetter, identName?]

theorem Expr.isSetterCall_iff {holder : String} {e : Expr} :
    e.isSetterCall holder = true ↔ e.CallsSet holder := by
  constructor
  · intro h
    obtain ⟨span, node⟩ := e
    cases node with
    | call fn args =>
        obtain ⟨outer, inner, binding, rfl⟩ := isSetter_iff.mp h
        exact .call ..
    | _ => cases h
  · rintro ⟨span, outer, inner, binding, args⟩
    exact isSetter_iff.mpr ⟨outer, inner, binding, rfl⟩

instance (holder : String) (e : Expr) : Decidable (e.CallsSet holder) :=
  decidable_of_iff _ Expr.isSetterCall_iff

namespace Check

section Findings

variable (p : Program) (settings : Settings) (target : ResourceDef)

/-- The contribution of one call of `Set`. -/
inductive CallFindings : Expr → Session → Report → Session → Prop
  /-- Only calls with two arguments, the first of them a string literal, are checked. -/
  | unchecked {e : Expr} {s : Session}
      (h : ∀ span fn inner text value,
        e ≠ ⟨span, .call fn [⟨inner, .literal .string text⟩, value]⟩) :
      CallFindings e s [] s
  | missing {span inner : Span} {fn value : Expr} {text : String} {s : Session}
      (hkey : target.schema.find? (unquote text) = none) :
      CallFindings ⟨span, .call fn [⟨inner, .literal .string text⟩, value]⟩ s
        [.missingField (p.sources.location span) (unquote text) target.name] s
  | unresolved {span inner : Span} {fn value : Expr} {text : String} {s s' : Session}
      {field : SchemaField} {cause : InferError}
      (hkey : target.schema.find? (unquote text) = some field)
      (hvalue : Ends (p.typeOf · value target.module) s (.error cause) s') :
      CallFindings ⟨span, .call fn [⟨inner, .literal .string text⟩, value]⟩ s
        [.unresolved (p.sources.location span) (unquote text) cause] s'
  | undetermined {span inner : Span} {fn value : Expr} {text : String} {s s' : Session}
      {field : SchemaField} (hkey : target.schema.find? (unquote text) = some field)
      (hvalue : Ends (p.typeOf · value target.module) s (.ok .stub) s') :
      CallFindings ⟨span, .call fn [⟨inner, .literal .string text⟩, value]⟩ s
        [.undetermined (p.sources.location span) (unquote text)] s'
  | mismatch {span inner : Span} {fn value : Expr} {text : String} {s s₁ s' : Session}
      {field : SchemaField} {t : Ty} {r : Except InferError Bool}
      (hkey : target.schema.find? (unquote text) = some field)
      (hvalue : Ends (p.typeOf · value target.module) s (.ok t) s₁) (ht : t ≠ .stub)
      (hfits : Ends (p.fits · t field.expected settings.overrides) s₁ r s') (hr : r ≠ .ok true) :
      CallFindings ⟨span, .call fn [⟨inner, .literal .string text⟩, value]⟩ s
        [.typeMismatch (p.sources.location span) (unquote text) t.qualifiedName
          field.expected.text] s'
  | fits {span inner : Span} {fn value : Expr} {text : String} {s s₁ s' : Session}
      {field : SchemaField} {t : Ty}
      (hkey : target.schema.find? (unquote text) = some field)
      (hvalue : Ends (p.typeOf · value target.module) s (.ok t) s₁) (ht : t ≠ .stub)
      (hfits : Ends (p.fits · t field.expected settings.overrides) s₁ (.ok true) s') :
      CallFindings ⟨span, .call fn [⟨inner, .literal .string text⟩, value]⟩ s [] s'

/-- The contribution of one lifecycle function. -/
inductive FunctionFindings : FuncDecl → Session → Report → Session → Prop
  | unsupported {f : FuncDecl} {s : Session} (htwo : f.parameters.length ≠ 2)
      (hthree : f.parameters.length ≠ 3) :
      FunctionFindings f s
        [.unsupportedSignature (p.sources.location f.span) f.name f.parameters.length] s
  | unnamed {f : FuncDecl} {s : Session} (h : f.HolderIs none) : FunctionFindings f s [] s
  | named {f : FuncDecl} {holder : String} {s s' : Session} {report : Report}
      (h : f.HolderIs (some holder))
      (hcalls : InTurn (CallFindings p settings target)
        (Stmt.outermost (fun e => e.CallsSet holder) f.body) s report s') :
      FunctionFindings f s report s'

end Findings

variable {p : Program} {settings : Settings} {target : ResourceDef} {s s' : Session}

section OneCall

theorem setter?_eq_some {e : Expr} {setter : Setter} (h : e.setter? = some setter) :
    ∃ fn inner text, e = ⟨setter.span, .call fn [⟨inner, .literal .string text⟩, setter.value]⟩ ∧
      setter.key = unquote text := by
  obtain ⟨span, node⟩ := e
  unfold Expr.setter? at h
  split at h
  · next fn key value hnode =>
      obtain ⟨text, htext, rfl⟩ := Option.map_eq_some_iff.mp h
      obtain ⟨inner, knode⟩ := key
      unfold Expr.stringText? at htext
      split at htext
      · next raw hraw =>
          cases htext
          cases hnode
          cases hraw
          exact ⟨fn, inner, raw, rfl, rfl⟩
      · cases htext
  · cases h

theorem setter?_eq_none_iff {e : Expr} :
    e.setter? = none ↔ ∀ span fn inner text value,
      e ≠ ⟨span, .call fn [⟨inner, .literal .string text⟩, value]⟩ := by
  constructor
  · rintro h span fn inner text value rfl
    cases h
  · intro h
    rw [Option.eq_none_iff_forall_ne_some]
    intro setter hsetter
    obtain ⟨fn, inner, text, heq, _⟩ := setter?_eq_some hsetter
    exact h _ _ _ _ _ heq

theorem fitsField_ends_iff {t : Ty} {field : SchemaField} {r : Except InferError Bool} :
    Ends (fun depth => fitsField p (infer p depth) settings t field) s r s' ↔
      ∃ q, Ends (p.fits · t field.expected settings.overrides) s q s' ∧
        r = .ok (decide (q = .ok true)) := by
  unfold fitsField
  refine (Ends.attempt_bind_iff (Program.fits_monotone t _ _) fun q => ?_).trans ?_
  · exact monotone_const
  constructor
  · rintro ⟨q, s₁, hq, hrest⟩
    rcases q with e | b
    · obtain ⟨rfl, rfl⟩ := Ends.pure_iff.mp hrest
      exact ⟨_, hq, rfl⟩
    · obtain ⟨rfl, rfl⟩ := Ends.pure_iff.mp hrest
      refine ⟨_, hq, ?_⟩
      cases b <;> rfl
  · rintro ⟨q, hq, rfl⟩
    refine ⟨q, s', hq, ?_⟩
    rcases q with e | b
    · exact Ends.pure_iff.mpr ⟨rfl, rfl⟩
    · refine Ends.pure_iff.mpr ⟨?_, rfl⟩
      cases b <;> rfl

/-- What is found about a value whose type could be told. -/
def verdict (p : Program) (setter : Setter) (field : SchemaField) (t : Ty) (fits : Bool) :
    Option Finding :=
  if fits then none
  else some (.typeMismatch (p.sources.location setter.span) setter.key t.qualifiedName
    field.expected.text)

/-- What is found about the value for a field of the schema. -/
def ofValue (p : Program) (settings : Settings) (setter : Setter) (field : SchemaField)
    (depth : Nat) : Except InferError Ty → InferM (Option Finding)
  | .error cause =>
      return some (.unresolved (p.sources.location setter.span) setter.key cause)
  | .ok .stub => return some (.undetermined (p.sources.location setter.span) setter.key)
  | .ok t => do return verdict p setter field t (← fitsField p (infer p depth) settings t field)

theorem ofValue_of_ne_stub {setter : Setter} {field : SchemaField} {t : Ty} (ht : t ≠ .stub) :
    (ofValue p settings setter field · (.ok t)) =
      fun depth => fitsField p (infer p depth) settings t field >>= fun fits =>
        pure (verdict p setter field t fits) := by
  cases t <;> first | rfl | exact absurd rfl ht

theorem ofValue_monotone {setter : Setter} {field : SchemaField} (q : Except InferError Ty) :
    Monotone (ofValue p settings setter field · q) := by
  rcases q with cause | t
  · exact monotone_const
  · by_cases ht : t = .stub
    · subst ht
      exact monotone_const
    · rw [ofValue_of_ne_stub ht]
      exact fun _ _ h => bind_le_bind (fitsField_monotone t field h) fun _ => le_rfl

theorem ofValue_ends_iff {setter : Setter} {field : SchemaField} {t : Ty} (ht : t ≠ .stub)
    {r : Except InferError (Option Finding)} :
    Ends (ofValue p settings setter field · (.ok t)) s r s' ↔
      ∃ q, Ends (p.fits · t field.expected settings.overrides) s q s' ∧
        r = .ok (verdict p setter field t (decide (q = .ok true))) := by
  rw [ofValue_of_ne_stub ht, Ends.bind_pure_iff (fitsField_monotone t field)]
  simp only [fitsField_ends_iff]
  constructor
  · rintro (⟨_, ⟨q, hq, heq⟩, rfl⟩ | ⟨_, ⟨_, _, heq⟩, _⟩)
    · cases heq
      exact ⟨q, hq, rfl⟩
    · cases heq
  · rintro ⟨q, hq, rfl⟩
    exact .inl ⟨_, ⟨q, hq, rfl⟩, rfl⟩

theorem ofSetter_eq {setter : Setter} {field : SchemaField}
    (hkey : target.schema.find? setter.key = some field) (depth : Nat) :
    ofSetter p (infer p depth) settings target setter =
      attempt (p.typeOf depth setter.value target.module) >>=
        ofValue p settings setter field depth := by
  have hverdict : ∀ t : Ty, (do
      if ← fitsField p (infer p depth) settings t field then return none
      else return some (.typeMismatch (p.sources.location setter.span) setter.key t.qualifiedName
        field.expected.text)) = (do
      return verdict p setter field t (← fitsField p (infer p depth) settings t field)) := by
    intro t
    refine bind_congr fun fits => ?_
    cases fits <;> rfl
  simp only [ofSetter, hkey]
  refine bind_congr fun q => ?_
  rcases q with cause | t
  · rfl
  · cases t with
    | stub => rfl
    | _ => exact hverdict _

/-- The ways in which the value for a field of the schema can turn out. -/
theorem ofSetter_ends_iff {setter : Setter} {field : SchemaField}
    (hkey : target.schema.find? setter.key = some field)
    {r : Except InferError (Option Finding)} :
    Ends (fun depth => ofSetter p (infer p depth) settings target setter) s r s' ↔
      (∃ cause, Ends (p.typeOf · setter.value target.module) s (.error cause) s' ∧
        r = .ok (some (.unresolved (p.sources.location setter.span) setter.key cause))) ∨
      (Ends (p.typeOf · setter.value target.module) s (.ok .stub) s' ∧
        r = .ok (some (.undetermined (p.sources.location setter.span) setter.key))) ∨
      ∃ t s₁ q, Ends (p.typeOf · setter.value target.module) s (.ok t) s₁ ∧ t ≠ .stub ∧
        Ends (p.fits · t field.expected settings.overrides) s₁ q s' ∧
        r = .ok (verdict p setter field t (decide (q = .ok true))) := by
  simp only [ofSetter_eq hkey]
  rw [Ends.attempt_bind_iff (Program.typeOf_monotone _ _) ofValue_monotone]
  constructor
  · rintro ⟨q, s₁, hq, hrest⟩
    rcases q with cause | t
    · obtain ⟨rfl, rfl⟩ := Ends.pure_iff.mp hrest
      exact .inl ⟨cause, hq, rfl⟩
    · by_cases ht : t = .stub
      · subst ht
        obtain ⟨rfl, rfl⟩ := Ends.pure_iff.mp hrest
        exact .inr (.inl ⟨hq, rfl⟩)
      · obtain ⟨q', hq', rfl⟩ := (ofValue_ends_iff ht).mp hrest
        exact .inr (.inr ⟨t, s₁, q', hq, ht, hq', rfl⟩)
  · rintro (⟨cause, hq, rfl⟩ | ⟨hq, rfl⟩ | ⟨t, s₁, q, hq, ht, hq', rfl⟩)
    · exact ⟨_, s', hq, Ends.pure_iff.mpr ⟨rfl, rfl⟩⟩
    · exact ⟨_, s', hq, Ends.pure_iff.mpr ⟨rfl, rfl⟩⟩
    · exact ⟨_, s₁, hq, (ofValue_ends_iff ht).mpr ⟨q, hq', rfl⟩⟩

theorem ofSetter_sound {e : Expr} {setter : Setter} (he : e.setter? = some setter)
    {r : Except InferError (Option Finding)}
    (h : Ends (fun depth => ofSetter p (infer p depth) settings target setter) s r s') :
    ∃ finding : Option Finding, r = .ok finding ∧
      CallFindings p settings target e s finding.toList s' := by
  obtain ⟨fn, inner, text, rfl, htext⟩ := setter?_eq_some he
  obtain ⟨span, key, value⟩ := setter
  obtain rfl : key = unquote text := htext
  cases hkey : target.schema.find? (Setter.mk span (unquote text) value).key with
  | none =>
      simp only [ofSetter, hkey] at h
      obtain ⟨rfl, rfl⟩ := Ends.pure_iff.mp h
      exact ⟨_, rfl, .missing hkey⟩
  | some field =>
      rcases (ofSetter_ends_iff hkey).mp h with
        ⟨cause, hq, rfl⟩ | ⟨hq, rfl⟩ | ⟨t, s₁, q, hq, ht, hq', rfl⟩
      · exact ⟨_, rfl, .unresolved hkey hq⟩
      · exact ⟨_, rfl, .undetermined hkey hq⟩
      · refine ⟨_, rfl, ?_⟩
        by_cases hfits : q = .ok true
        · simpa [verdict, hfits] using CallFindings.fits hkey hq ht (hfits ▸ hq')
        · simpa [verdict, hfits] using CallFindings.mismatch hkey hq ht hq' hfits

theorem ofSetter_complete {e : Expr} {setter : Setter} (he : e.setter? = some setter)
    {report : Report} (h : CallFindings p settings target e s report s') :
    ∃ finding : Option Finding, report = finding.toList ∧
      Ends (fun depth => ofSetter p (infer p depth) settings target setter) s (.ok finding) s' := by
  obtain ⟨fn, inner, text, rfl, htext⟩ := setter?_eq_some he
  cases h with
  | unchecked hnot => exact absurd rfl (hnot _ _ _ _ _)
  | missing hkey =>
      rw [← htext] at hkey ⊢
      refine ⟨some _, rfl, ?_⟩
      simp only [ofSetter, hkey]
      exact Ends.pure_iff.mpr ⟨rfl, rfl⟩
  | unresolved hkey hvalue =>
      rw [← htext] at hkey ⊢
      exact ⟨some _, rfl, (ofSetter_ends_iff hkey).mpr (.inl ⟨_, hvalue, rfl⟩)⟩
  | undetermined hkey hvalue =>
      rw [← htext] at hkey ⊢
      exact ⟨some _, rfl, (ofSetter_ends_iff hkey).mpr (.inr (.inl ⟨hvalue, rfl⟩))⟩
  | mismatch hkey hvalue ht hfits hr =>
      rw [← htext] at hkey ⊢
      refine ⟨some _, rfl, (ofSetter_ends_iff hkey).mpr (.inr (.inr
        ⟨_, _, _, hvalue, ht, hfits, ?_⟩))⟩
      simp [verdict, hr]
  | fits hkey hvalue ht hfits =>
      rw [← htext] at hkey
      refine ⟨none, rfl, (ofSetter_ends_iff hkey).mpr (.inr (.inr
        ⟨_, _, _, hvalue, ht, hfits, ?_⟩))⟩
      simp [verdict]

end OneCall

section InTurn

/-- A contribution and then the contributions of the rest. -/
theorem ends_append_iff {α : Type} {x : Nat → InferM α} {rest : Nat → InferM Report}
    (hx : Monotone x) (hrest : Monotone rest) (first : α → Report)
    {r : Except InferError Report} :
    Ends (fun depth => do
        let a ← x depth
        return first a ++ (← rest depth)) s r s' ↔
      (∃ a s₁, Ends x s (.ok a) s₁ ∧
        ((∃ others, Ends rest s₁ (.ok others) s' ∧ r = .ok (first a ++ others)) ∨
          ∃ e, Ends rest s₁ (.error e) s' ∧ r = .error e)) ∨
        ∃ e, Ends x s (.error e) s' ∧ r = .error e := by
  refine (Ends.bind_iff hx fun a => ?_).trans ?_
  · exact fun _ _ h => bind_le_bind (hrest h) fun _ => le_rfl
  · simp only [Ends.bind_pure_iff hrest]

theorem ofSetters_ends_iff {calls : List Expr} {r : Except InferError Report} :
    Ends (ofSetters p · settings target (calls.filterMap Expr.setter?)) s r s' ↔
      ∃ report, r = .ok report ∧ InTurn (CallFindings p settings target) calls s report s' := by
  induction calls generalizing s r with
  | nil =>
      refine Ends.pure_iff.trans ⟨?_, ?_⟩
      · rintro ⟨rfl, rfl⟩
        exact ⟨[], rfl, .nil s'⟩
      · rintro ⟨report, rfl, h⟩
        cases h
        exact ⟨rfl, rfl⟩
  | cons e rest ih =>
      cases he : e.setter? with
      | none =>
          rw [List.filterMap_cons_none he, ih]
          constructor
          · rintro ⟨report, rfl, h⟩
            exact ⟨report, rfl, .cons (.unchecked (setter?_eq_none_iff.mp he)) h⟩
          · rintro ⟨report, rfl, h⟩
            cases h with
            | cons hfirst hrest =>
                cases hfirst with
                | unchecked => exact ⟨_, rfl, hrest⟩
                | _ => cases he
      | some setter =>
          rw [List.filterMap_cons_some he]
          refine (ends_append_iff (ofSetter_monotone setter) (ofSetters_monotone _)
            Option.toList).trans ?_
          constructor
          · rintro (⟨finding, s₁, hfinding, ⟨others, hothers, rfl⟩ | ⟨e', he', _⟩⟩ | ⟨e', he', _⟩)
            · obtain ⟨_, heq, hfirst⟩ := ofSetter_sound he hfinding
              obtain ⟨_, heq', hrest⟩ := ih.mp hothers
              cases heq
              cases heq'
              exact ⟨_, rfl, .cons hfirst hrest⟩
            · obtain ⟨_, heq, _⟩ := ih.mp he'
              cases heq
            · obtain ⟨_, heq, _⟩ := ofSetter_sound he he'
              cases heq
          · rintro ⟨report, rfl, h⟩
            cases h with
            | cons hfirst hrest =>
                obtain ⟨finding, rfl, hfinding⟩ := ofSetter_complete he hfirst
                exact .inl ⟨finding, _, hfinding, .inl ⟨_, ih.mpr ⟨_, rfl, hrest⟩, rfl⟩⟩

end InTurn

section Lifecycle

theorem dataParam_cases (f : FuncDecl) :
    (∃ holder, f.HolderIs holder ∧ f.dataParam = .ofName holder) ∨
      (f.parameters.length ≠ 2 ∧ f.parameters.length ≠ 3 ∧
        f.dataParam = .unsupported f.parameters.length) := by
  unfold FuncDecl.HolderIs FuncDecl.dataParam
  rcases f.parameters with _ | ⟨a, _ | ⟨b, _ | ⟨c, _ | ⟨d, rest⟩⟩⟩⟩
  · exact .inr ⟨by simp, by simp, rfl⟩
  · exact .inr ⟨by simp, by simp, rfl⟩
  · exact .inl ⟨a, .inl ⟨b, rfl⟩, rfl⟩
  · exact .inl ⟨b, .inr ⟨a, c, rfl⟩, rfl⟩
  · exact .inr ⟨by simp, by simp, rfl⟩

theorem holderIs_length {f : FuncDecl} {holder : Option String} (h : f.HolderIs holder) :
    f.parameters.length = 2 ∨ f.parameters.length = 3 := by
  rcases h with ⟨last, h⟩ | ⟨first, last, h⟩ <;> simp [h]

theorem holderIs_unique {f : FuncDecl} {holder holder' : Option String} (h : f.HolderIs holder)
    (h' : f.HolderIs holder') : holder = holder' := by
  rcases h with ⟨last, h⟩ | ⟨first, last, h⟩ <;>
    rcases h' with ⟨last', h'⟩ | ⟨first', last', h'⟩ <;> simp_all

theorem setters_eq (f : FuncDecl) (holder : String) :
    f.setters holder =
      (Stmt.outermost (fun e => e.CallsSet holder) f.body).filterMap Expr.setter? := by
  have hcalls : (fun e : Expr => decide (e.CallsSet holder)) = Expr.isSetterCall holder := by
    funext e
    rw [Bool.eq_iff_iff, decide_eq_true_iff, Expr.isSetterCall_iff]
  rw [FuncDecl.setters, Stmt.filter_walkAll, hcalls]

theorem ofFunction_ends_iff {f : FuncDecl} {r : Except InferError Report} :
    Ends (ofFunction p · settings target f) s r s' ↔
      ∃ report, r = .ok report ∧ FunctionFindings p settings target f s report s' := by
  rcases dataParam_cases f with ⟨holder, hholder, hparam⟩ | ⟨htwo, hthree, hparam⟩
  · cases holder with
    | none =>
        simp only [ofFunction, hparam, DataParam.ofName]
        refine Ends.pure_iff.trans ⟨?_, ?_⟩
        · rintro ⟨rfl, rfl⟩
          exact ⟨[], rfl, .unnamed hholder⟩
        · rintro ⟨report, rfl, h⟩
          cases h with
          | unsupported htwo hthree =>
              rcases holderIs_length hholder with h | h <;> contradiction
          | unnamed => exact ⟨rfl, rfl⟩
          | named hnamed => cases holderIs_unique hholder hnamed
    | some holder =>
        simp only [ofFunction, hparam, DataParam.ofName, setters_eq]
        refine ofSetters_ends_iff.trans ⟨?_, ?_⟩
        · rintro ⟨report, rfl, h⟩
          exact ⟨report, rfl, .named hholder h⟩
        · rintro ⟨report, rfl, h⟩
          cases h with
          | unsupported htwo hthree =>
              rcases holderIs_length hholder with h | h <;> contradiction
          | unnamed hunnamed => cases holderIs_unique hholder hunnamed
          | named hnamed hcalls =>
              cases holderIs_unique hholder hnamed
              exact ⟨report, rfl, hcalls⟩
  · simp only [ofFunction, hparam]
    refine Ends.pure_iff.trans ⟨?_, ?_⟩
    · rintro ⟨rfl, rfl⟩
      exact ⟨_, rfl, .unsupported htwo hthree⟩
    · rintro ⟨report, rfl, h⟩
      cases h with
      | unsupported => exact ⟨rfl, rfl⟩
      | unnamed h => rcases holderIs_length h with h | h <;> contradiction
      | named h => rcases holderIs_length h with h | h <;> contradiction

theorem ofFunctions_ends_iff {fs : List FuncDecl} {r : Except InferError Report} :
    Ends (ofFunctions p · settings target fs) s r s' ↔
      ∃ report, r = .ok report ∧ InTurn (FunctionFindings p settings target) fs s report s' := by
  induction fs generalizing s r with
  | nil =>
      refine Ends.pure_iff.trans ⟨?_, ?_⟩
      · rintro ⟨rfl, rfl⟩
        exact ⟨[], rfl, .nil s'⟩
      · rintro ⟨report, rfl, h⟩
        cases h
        exact ⟨rfl, rfl⟩
  | cons f rest ih =>
      refine (ends_append_iff (ofFunction_monotone f) (ofFunctions_monotone rest) id).trans ?_
      simp only [ofFunction_ends_iff, ih]
      constructor
      · rintro (⟨findings, s₁, ⟨_, heq, hfirst⟩,
          ⟨others, ⟨_, heq', hrest⟩, rfl⟩ | ⟨_, ⟨_, heq', _⟩, _⟩⟩ | ⟨_, ⟨_, heq, _⟩, _⟩)
        · cases heq
          cases heq'
          exact ⟨_, rfl, .cons hfirst hrest⟩
        · cases heq'
        · cases heq
      · rintro ⟨report, rfl, h⟩
        cases h with
        | cons hfirst hrest =>
            exact .inl ⟨_, _, ⟨_, rfl, hfirst⟩, .inl ⟨_, ⟨_, rfl, hrest⟩, rfl⟩⟩

/-- `d.Set(args)`, in the given line. -/
def setCall (line : Nat) (args : List Expr) : Expr :=
  ⟨⟨0, line, 0, 0⟩, .call ⟨.zero, .selector ⟨.zero, .ident "d" none⟩ "Set"⟩ args⟩

/-- A string literal. -/
def quoted (text : String) : Expr :=
  ⟨.zero, .literal .string text⟩

/-- `func read(d, meta any)`. It sets `size` to a text in line 3, `size` to the length of what a
call for `color` gives in line 4, passes a single argument in line 5, and sets `color` in line 6. -/
def readSizes : FuncDecl where
  name := "read"
  receiver := none
  params := [⟨["d", "meta"], ⟨.zero, .ident "any" none⟩, .zero⟩]
  results := []
  body := [.expr (setCall 3 [quoted "size", quoted "large"]),
    .expr (setCall 4 [quoted "size", ⟨.zero, .call ⟨.zero, .ident "len" none⟩
      [setCall 4 [quoted "color", quoted "red"]]⟩]),
    .expr (setCall 5 [quoted "size"]),
    .block [.expr (setCall 6 [quoted "color", quoted "red"])]]
  span := .zero

/-- The calls in lines 3 and 6 are found; the one inside another call and the one with a single
argument are not looked at. -/
example : ∃ s', ofResource (Program.empty ["disk.go"] |>.add ⟨"m", "m", [], [], [], [], ∅⟩) 4
    .default ⟨"disk", "m", Table.ofList [("size", ⟨.category .int, false⟩)], [readSizes]⟩ .new =
      some (.ok [.typeMismatch ⟨"disk.go", 3⟩ "size" "string" "int",
        .missingField ⟨"disk.go", 6⟩ "color" "disk"], s') :=
  ⟨_, rfl⟩

end Lifecycle

end Check

end ResourceLint
