import ResourceLint.Proofs.Alone
import ResourceLint.Proofs.Run
import ResourceLint.Proofs.SetterCheck

/-!
# Checking generators apart

A run checks all generators of a program within one session. `Program.lintApart` is the run that
gives each of them a session of its own. Whether the two reports agree is decided setter by setter:
what is the same about any two checks of a setter, in sessions that a run can have, is the same
about the two reports (`Agreement.lint`).
-/

namespace ResourceLint

open InferM

namespace Check

variable (p : Program) (depth : Nat) (settings : Settings)

def ofGeneratorsApart (m : Module) : List FuncDecl → InferM Report
  | [] => return []
  | f :: rest => do
      let findings ← isolate (ofGenerator p depth settings m f)
      return findings ++ (← ofGeneratorsApart m rest)

def ofModuleApart (m : Module) : InferM Report := do
  match m.generators settings with
  | [] => return []
  | fs =>
      match ← isolate (attempt (scope p m.id)) with
      | .error cause => return [.scope m.id cause]
      | .ok _ => ofGeneratorsApart p depth settings m fs

def ofModulesApart : List Module → InferM Report
  | [] => return []
  | m :: rest => do
      let findings ← ofModuleApart p depth settings m
      return findings ++ (← ofModulesApart rest)

end Check

/-- The findings about all resources of a program, with a new session for each generator. -/
def Program.lintApart (p : Program) (depth : Nat) (settings : Settings) : Option Report :=
  match Check.ofModulesApart p depth settings p.modules Session.new with
  | some (.ok report, _) => some report
  | _ => none

/-- The setters that are checked in a lifecycle function. -/
def FuncDecl.checkedSetters (f : FuncDecl) : List Setter :=
  match f.dataParam with
  | .named holder => f.setters holder
  | .unnamed | .unsupported _ => []

/-- All setters that a run checks, with the resources they are checked against. -/
def Program.checks (p : Program) (settings : Settings) : List (ResourceDef × Setter) :=
  (p.generators settings).flatMap fun (m, f) =>
    match ResourceDef.load p m f settings with
    | .ok target => target.lifecycle.flatMap fun g => g.checkedSetters.map fun s => (target, s)
    | .error _ => []

theorem Program.mem_checks {p : Program} {settings : Settings} {m : Module} (hm : m ∈ p.modules)
    {f : FuncDecl} (hf : f ∈ m.generators settings) {target : ResourceDef}
    (hload : ResourceDef.load p m f settings = .ok target) {g : FuncDecl}
    (hg : g ∈ target.lifecycle) {setter : Setter} (hsetter : setter ∈ g.checkedSetters) :
    (target, setter) ∈ p.checks settings := by
  have hgenerator : (m, f) ∈ p.generators settings :=
    List.mem_flatMap.mpr ⟨m, hm, List.mem_map_of_mem hf⟩
  refine List.mem_flatMap.mpr ⟨(m, f), hgenerator, ?_⟩
  simp only [hload]
  exact List.mem_flatMap.mpr ⟨g, hg, List.mem_map_of_mem hsetter⟩

namespace InferM

variable {α β γ δ : Type} {I : Session → Prop} {R : α → β → Prop} {S : γ → δ → Prop}
  {x : InferM α} {y : InferM β}

/-- If both come to an end, in sessions that satisfy an invariant, then both succeed with related
results, and the invariant still holds. -/
def Agree (I : Session → Prop) (R : α → β → Prop) (x : InferM α) (y : InferM β) : Prop :=
  ∀ s t r q s' t', I s → I t → x s = some (r, s') → y t = some (q, t') →
    I s' ∧ I t' ∧ ∃ a b, r = .ok a ∧ q = .ok b ∧ R a b

theorem agree_pure {a : α} {b : β} (h : R a b) : Agree I R (pure a) (pure b) := by
  intro s t r q s' t' hs ht hr hq
  cases hr
  cases hq
  exact ⟨hs, ht, a, b, rfl, rfl, h⟩

theorem agree_bind {f : α → InferM γ} {g : β → InferM δ} (h : Agree I R x y)
    (hfg : ∀ a b, R a b → Agree I S (f a) (g b)) : Agree I S (x >>= f) (y >>= g) := by
  intro s t r q s' t' hs ht hr hq
  have hsplit : ∀ {r₁ q₁ s₁ t₁}, x s = some (r₁, s₁) → y t = some (q₁, t₁) →
      I s₁ ∧ I t₁ ∧ ∃ a b, r₁ = .ok a ∧ q₁ = .ok b ∧ R a b := h _ _ _ _ _ _ hs ht
  rcases bind_eq_some.mp hr with ⟨a, s₁, ha, hfa⟩ | ⟨e, he, rfl⟩ <;>
    rcases bind_eq_some.mp hq with ⟨b, t₁, hb, hgb⟩ | ⟨e', he', rfl⟩
  · obtain ⟨hs₁, ht₁, _, _, heq, heq', hab⟩ := hsplit ha hb
    cases heq
    cases heq'
    exact hfg a b hab s₁ t₁ r q s' t' hs₁ ht₁ hfa hgb
  · obtain ⟨_, _, _, _, _, heq, _⟩ := hsplit ha he'
    cases heq
  · obtain ⟨_, _, _, _, heq, _⟩ := hsplit he hb
    cases heq
  · obtain ⟨_, _, _, _, heq, _⟩ := hsplit he he'
    cases heq

theorem agree_isolate (hnew : I .new) (h : Agree I R x y) : Agree I R x (isolate y) := by
  intro s t r q s' t' hs ht hr hq
  obtain ⟨⟨t₁, hy⟩, rfl⟩ := isolate_eq_some.mp hq
  obtain ⟨hs', _, hresult⟩ := h s .new r q s' t₁ hs hnew hr hy
  exact ⟨hs', ht, hresult⟩

end InferM

/-- A way in which reports agree, and what holds of all sessions that a run can have. -/
structure Agreement (p : Program) (settings : Settings) where
  invariant : Session → Prop
  same : Report → Report → Prop
  new : invariant .new
  enter : ∀ {s} id, invariant s → invariant (s.enter p id).2
  sound : ∀ {s}, invariant s → s.Sound p
  refl : ∀ report, same report report
  append : ∀ {first first' others others'}, same first first' → same others others' →
    same (first ++ others) (first' ++ others')
  setter : ∀ {target setter}, (target, setter) ∈ p.checks settings → ∀ depth depth',
    Agree invariant (fun found found' => same found.toList found'.toList)
      (Check.ofSetter p (infer p depth) settings target setter)
      (Check.ofSetter p (infer p depth') settings target setter)

namespace Agreement

variable {p : Program} {settings : Settings} (a : Agreement p settings) {depth depth' : Nat}

theorem same_append {α β : Type} {x : InferM α} {y : InferM β} {rest rest' : InferM Report}
    {first : α → Report} {first' : β → Report}
    (h : Agree a.invariant (fun found found' => a.same (first found) (first' found')) x y)
    (hrest : Agree a.invariant a.same rest rest') :
    Agree a.invariant a.same (do return first (← x) ++ (← rest))
      (do return first' (← y) ++ (← rest')) :=
  agree_bind h fun _ _ hfirst => agree_bind hrest fun _ _ hothers =>
    agree_pure (a.append hfirst hothers)

theorem ofSetters {target : ResourceDef} {setters : List Setter}
    (h : ∀ setter ∈ setters, (target, setter) ∈ p.checks settings) :
    Agree a.invariant a.same (Check.ofSetters p depth settings target setters)
      (Check.ofSetters p depth' settings target setters) := by
  induction setters with
  | nil => exact agree_pure (a.refl [])
  | cons setter rest ih =>
      obtain ⟨hsetter, hrest⟩ := List.forall_mem_cons.mp h
      exact a.same_append (a.setter hsetter depth depth') (ih hrest)

theorem ofFunction {target : ResourceDef} {f : FuncDecl}
    (h : ∀ setter ∈ f.checkedSetters, (target, setter) ∈ p.checks settings) :
    Agree a.invariant a.same (Check.ofFunction p depth settings target f)
      (Check.ofFunction p depth' settings target f) := by
  unfold FuncDecl.checkedSetters at h
  unfold Check.ofFunction
  cases hparam : f.dataParam with
  | named holder =>
      rw [hparam] at h
      exact a.ofSetters h
  | unnamed => exact agree_pure (a.refl _)
  | unsupported arity => exact agree_pure (a.refl _)

theorem ofFunctions {target : ResourceDef} {fs : List FuncDecl}
    (h : ∀ f ∈ fs, ∀ setter ∈ f.checkedSetters, (target, setter) ∈ p.checks settings) :
    Agree a.invariant a.same (Check.ofFunctions p depth settings target fs)
      (Check.ofFunctions p depth' settings target fs) := by
  induction fs with
  | nil => exact agree_pure (a.refl [])
  | cons f rest ih =>
      obtain ⟨hf, hrest⟩ := List.forall_mem_cons.mp h
      exact a.same_append (a.ofFunction hf) (ih hrest)

section Generators

variable {m : Module} (hm : m ∈ p.modules)

include hm

theorem ofGenerator {f : FuncDecl} (hf : f ∈ m.generators settings) :
    Agree a.invariant a.same (Check.ofGenerator p depth settings m f)
      (Check.ofGenerator p depth' settings m f) := by
  unfold Check.ofGenerator
  cases hload : ResourceDef.load p m f settings with
  | ok target =>
      exact a.ofFunctions fun g hg setter hsetter => Program.mem_checks hm hf hload hg hsetter
  | error cause => exact agree_pure (a.refl _)

theorem ofGenerators {fs : List FuncDecl} (h : ∀ f ∈ fs, f ∈ m.generators settings) :
    Agree a.invariant a.same (Check.ofGenerators p depth settings m fs)
      (Check.ofGeneratorsApart p depth' settings m fs) := by
  induction fs with
  | nil => exact agree_pure (a.refl [])
  | cons f rest ih =>
      obtain ⟨hf, hrest⟩ := List.forall_mem_cons.mp h
      exact a.same_append (agree_isolate a.new (a.ofGenerator hm hf)) (ih hrest)

end Generators

/-- Whether a scope can be built, and why not, is the same in all sessions. -/
theorem scope (id : String) :
    Agree a.invariant (ExceptRel Eq fun _ _ => True) (attempt (InferM.scope p id))
      (attempt (InferM.scope p id)) := by
  intro s t r q s' t' hs ht hr hq
  obtain ⟨r', hr', rfl⟩ := attempt_eq_some.mp hr
  obtain ⟨q', hq', rfl⟩ := attempt_eq_some.mp hq
  rw [scope_apply, Option.some.injEq] at hr' hq'
  have hlike := (a.sound hs).enter_like (a.sound ht) id
  have hs' := a.enter id hs
  have ht' := a.enter id ht
  rw [hr'] at hs' hlike
  rw [hq'] at ht' hlike
  exact ⟨hs', ht', r', q', rfl, rfl, hlike.mono (fun _ _ he => he) fun _ _ _ => trivial⟩

theorem ofModule {m : Module} (hm : m ∈ p.modules) :
    Agree a.invariant a.same (Check.ofModule p depth settings m)
      (Check.ofModuleApart p depth' settings m) := by
  unfold Check.ofModule Check.ofModuleApart
  have hgenerators : Agree a.invariant a.same
      (Check.ofGenerators p depth settings m (m.generators settings))
      (Check.ofGeneratorsApart p depth' settings m (m.generators settings)) :=
    a.ofGenerators hm fun f hf => hf
  generalize m.generators settings = fs at hgenerators
  cases fs with
  | nil => exact agree_pure (a.refl [])
  | cons f rest =>
      refine agree_bind (agree_isolate a.new (a.scope m.id)) fun r q hrq => ?_
      cases r with
      | ok _ =>
          cases q with
          | ok _ => exact hgenerators
          | error _ => cases hrq
      | error e =>
          cases q with
          | ok _ => cases hrq
          | error e' =>
              obtain rfl : e = e' := hrq
              exact agree_pure (a.refl _)

theorem ofModules {ms : List Module} (h : ∀ m ∈ ms, m ∈ p.modules) :
    Agree a.invariant a.same (Check.ofModules p depth settings ms)
      (Check.ofModulesApart p depth' settings ms) := by
  induction ms with
  | nil => exact agree_pure (a.refl [])
  | cons m rest ih =>
      obtain ⟨hm, hrest⟩ := List.forall_mem_cons.mp h
      exact a.same_append (a.ofModule hm) (ih hrest)

theorem lint {shared apart : Report} (hshared : p.lint depth settings = some shared)
    (hapart : p.lintApart depth' settings = some apart) : a.same shared apart := by
  unfold Program.lint at hshared
  unfold Program.lintApart at hapart
  split at hshared
  · next s' hs' =>
      split at hapart
      · next t' ht' =>
          cases hshared
          cases hapart
          obtain ⟨_, _, _, _, heq, heq', hsame⟩ :=
            a.ofModules (fun _ hm => hm) _ _ _ _ s' t' a.new a.new hs' ht'
          cases heq
          cases heq'
          exact hsame
      · cases hapart
  · cases hshared

end Agreement

/-- Whether a finding says something about the value of a setter. -/
def Finding.isAboutValue : Finding → Bool
  | .typeMismatch .. | .undetermined .. | .unresolved .. => true
  | .missingField .. | .unsupportedSignature .. | .definition .. | .scope .. => false

/-- The findings that are not about values. -/
def Report.aboutDeclarations (r : Report) : Report :=
  r.filter fun finding => !finding.isAboutValue

namespace Check

variable {p : Program} {depth depth' : Nat} {settings : Settings} {target : ResourceDef}
  {setter : Setter} {s s' : Session} {r : Except InferError (Option Finding)}

theorem ofSetter_of_missing (hkey : target.schema.find? setter.key = none) :
    ofSetter p (infer p depth) settings target setter =
      return some (.missingField (p.sources.location setter.span) setter.key target.name) := by
  simp only [ofSetter, hkey]

/-- For a field of the schema, nothing is found but what is about the value. -/
theorem ofSetter_of_field {field : SchemaField} (hs : s.Sound p)
    (hkey : target.schema.find? setter.key = some field)
    (h : ofSetter p (infer p depth) settings target setter s = some (r, s')) :
    s'.Sound p ∧ ∃ finding : Option Finding, r = .ok finding ∧
      Report.aboutDeclarations finding.toList = [] := by
  have hp : p.Within fun _ _ => True := fun _ _ _ _ _ => trivial
  have hsound : ∀ {s₁ q}, Ends (p.typeOf · setter.value target.module) s q s₁ → s₁.Sound p := by
    intro s₁ q hq
    have hchange : Change p (fun _ _ => True) s s₁ :=
      (Operation.typeOf setter.value target.module).change hp (fun _ _ => trivial)
        (hs.within hp) ⟨q, hq⟩
    exact hchange.sound hs
  rcases (ofSetter_ends_iff hkey).mp ⟨depth, h⟩ with
    ⟨cause, hq, rfl⟩ | ⟨hq, rfl⟩ | ⟨t, s₁, q, hq, _, hq', rfl⟩
  · exact ⟨hsound hq, _, rfl, rfl⟩
  · exact ⟨hsound hq, _, rfl, rfl⟩
  · have hchange : Change p (fun _ _ => True) s₁ s' :=
      (Operation.fits t field.expected settings.overrides).change hp trivial
        ((hsound hq).within hp) ⟨q, hq'⟩
    refine ⟨hchange.sound (hsound hq), _, rfl, ?_⟩
    unfold verdict
    split <;> rfl

/-- The check of a setter never fails. -/
theorem ofSetter_ok (h : ofSetter p (infer p depth) settings target setter s = some (r, s')) :
    ∃ finding, r = .ok finding := by
  cases hkey : target.schema.find? setter.key with
  | none =>
      rw [ofSetter_of_missing hkey] at h
      cases h
      exact ⟨_, rfl⟩
  | some field =>
      rcases (ofSetter_ends_iff hkey).mp ⟨depth, h⟩ with
        ⟨_, _, rfl⟩ | ⟨_, rfl⟩ | ⟨_, _, _, _, _, _, rfl⟩ <;> exact ⟨_, rfl⟩

end Check

/-- What is found about declarations does not depend on the session. -/
def Agreement.aboutDeclarations (p : Program) (settings : Settings) : Agreement p settings where
  invariant s := s.Sound p
  same r r' := r.aboutDeclarations = r'.aboutDeclarations
  new := Session.sound_new
  enter id hs := hs.enter id
  sound hs := hs
  refl _ := rfl
  append h h' := by
    simp only [Report.aboutDeclarations, List.filter_append] at h h' ⊢
    rw [h, h']
  setter := by
    intro target setter _ depth depth'
    cases hkey : target.schema.find? setter.key with
    | none =>
        rw [Check.ofSetter_of_missing hkey, Check.ofSetter_of_missing hkey]
        exact agree_pure rfl
    | some field =>
        intro s t r q s' t' hs ht hr hq
        obtain ⟨hs', found, rfl, hfound⟩ := Check.ofSetter_of_field hs hkey hr
        obtain ⟨ht', found', rfl, hfound'⟩ := Check.ofSetter_of_field ht hkey hq
        exact ⟨hs', ht', found, found', rfl, rfl, hfound.trans hfound'.symm⟩

end ResourceLint
