import ResourceLint.Proofs.Likeness
import ResourceLint.Proofs.Memo

/-!
# Scopes within a session

A session builds the scope of a module when the module is entered for the first time, from what the
module declares and from nothing else. The declarations in a session are therefore those of the
program, as long as every change to a scope leaves them alone.
-/

namespace ResourceLint

theorem Scope.ofModule_eq_ok {m : Module} {sc : Scope} (h : Scope.ofModule m = .ok sc) :
    Symbols.ofModule m = .ok sc.symbols ∧ sc.id = m.id ∧ sc.types = ∅ ∧ sc.signatures = ∅ ∧
      sc.inPlace = [] := by
  unfold Scope.ofModule at h
  cases hm : Symbols.ofModule m with
  | error e =>
      rw [hm] at h
      cases h
  | ok symbols =>
      rw [hm] at h
      cases h
      exact ⟨rfl, rfl, rfl, rfl, rfl⟩

theorem Scope.ofModule_eq_error {m : Module} {e : InferError} (h : Scope.ofModule m = .error e) :
    Symbols.ofModule m = .error e := by
  unfold Scope.ofModule at h
  cases hm : Symbols.ofModule m with
  | error e' =>
      rw [hm] at h
      cases h
      rfl
  | ok symbols =>
      rw [hm] at h
      cases h

/-- The first method whose receiver has no type name. -/
def Module.malformed? (m : Module) : Option FuncDecl :=
  m.functions.find? fun f => f.receiverType?.isNone

namespace Symbols

variable {m : Module} {e : InferError}

theorem foldlM_addFunction_eq_error {home : String} (fs : List FuncDecl) (t : Table FuncDecl) :
    fs.foldlM (addFunction home) t = .error e ↔
      ∃ f, fs.find? (fun f => f.receiverType?.isNone) = some f ∧
        e = .malformedReceiver f.name home := by
  induction fs generalizing t with
  | nil => simp [pure, Except.pure]
  | cons f rest ih =>
      rw [List.foldlM_cons]
      cases hr : f.receiverType? with
      | none =>
          rw [List.find?_cons_of_pos (by simp [hr])]
          simp [addFunction, hr, bind, Except.bind, eq_comm]
      | some receiver =>
          rw [List.find?_cons_of_neg (by simp [hr])]
          simp only [addFunction, hr]
          exact ih _

theorem ofModule_eq_error_iff :
    ofModule m = .error e ↔ ∃ f, m.malformed? = some f ∧ e = .malformedReceiver f.name m.id := by
  rw [Module.malformed?, ← foldlM_addFunction_eq_error m.functions ∅]
  unfold ofModule
  cases m.functions.foldlM (addFunction m.id) ∅ <;> simp [bind, Except.bind, pure, Except.pure]

theorem ofModule_error (h : ofModule m = .error e) : e.isUnknownStruct = false := by
  obtain ⟨f, _, rfl⟩ := ofModule_eq_error_iff.mp h
  rfl

end Symbols

namespace Program

/-- What the module of that id declares. -/
def symbols (p : Program) (id : String) : Except InferError Symbols :=
  match p.module? id with
  | some m => Symbols.ofModule m
  | none => .error (.unknownModule id)

variable {p : Program} {id : String}

theorem symbols_of_module? {m : Module} (h : p.module? id = some m) :
    p.symbols id = Symbols.ofModule m := by
  rw [Program.symbols, h]

theorem symbols_eq_ok {symbols : Symbols} (h : p.symbols id = .ok symbols) :
    ∃ m, p.module? id = some m ∧ Symbols.ofModule m = .ok symbols := by
  unfold Program.symbols at h
  cases hm : p.module? id with
  | none =>
      rw [hm] at h
      cases h
  | some m =>
      rw [hm] at h
      exact ⟨m, rfl, h⟩

theorem symbols_error {e : InferError} (h : p.symbols id = .error e) :
    e.isUnknownStruct = false := by
  unfold symbols at h
  split at h
  · exact Symbols.ofModule_error h
  · cases h
    rfl

/-- Everything that a program's own declarations can make an inference remember. -/
def Within (known : String → Memo → Prop) (p : Program) : Prop :=
  ∀ id m, p.module? id = some m → ∀ memo ∈ m.memos, known id memo

theorem mem_modules {m : Module} (h : p.module? id = some m) : m ∈ p.modules := by
  obtain ⟨before, after, heq, _⟩ := List.lookup_eq_some_iff.mp h
  simp [modules, Table.values, heq]

theorem module?_of_mem_entries {entry : String × Module} (h : entry ∈ p.table.entries) :
    p.module? entry.1 = some entry.2 :=
  Table.lookup_of_mem p.sorted.keys_nodup h

theorem module?_of_mem {m : Module} (h : m ∈ p.modules) : p.module? m.id = some m := by
  obtain ⟨entry, hentry, rfl⟩ := List.mem_map.mp h
  have hfind := module?_of_mem_entries hentry
  rwa [p.id_eq hfind]

theorem within_of_modules {known : String → Memo → Prop}
    (h : ∀ m ∈ p.modules, ∀ memo ∈ m.memos, known m.id memo) : p.Within known := by
  intro id m hm memo hmemo
  exact p.id_eq hm ▸ h m (p.mem_modules hm) memo hmemo

theorem Within.symbols {known : String → Memo → Prop} (hp : p.Within known) {symbols : Symbols}
    (h : p.symbols id = .ok symbols) : symbols.Within (known id) := by
  obtain ⟨m, hm, hok⟩ := symbols_eq_ok h
  exact Symbols.within_of_module hok (hp id m hm)

end Program

namespace Session

variable {p : Program} {s s' : Session} {id : String} {sc : Scope}

section Entering

/-- The scope of a module is at hand. -/
structure Entered (s : Session) (id : String) (sc : Scope) : Prop where
  scope : s.scopes.find? id = some sc
  failed : s.failed.find? id = none

theorem Entered.enter_eq (h : s.Entered id sc) : s.enter p id = (.ok sc, s) := by
  simp only [enter, h.failed, h.scope]

theorem entered_of_enter (h : s.enter p id = (.ok sc, s')) : s'.Entered id sc := by
  unfold enter at h
  split at h
  · cases h
  · next hfailed =>
      split at h
      · next hsc =>
          cases h
          exact ⟨hsc, hfailed⟩
      · split at h
        · cases h
        · split at h
          · cases h
            exact ⟨by simp, hfailed⟩
          · cases h

/-- Entering a module leaves the session alone, or adds a new scope, or notes why there is none. -/
theorem enter_cases (p : Program) (s : Session) (id : String) :
    (s.enter p id).2 = s ∨
      (s.scopes.find? id = none ∧ ∃ m, p.module? id = some m ∧
        ((∃ sc, Scope.ofModule m = .ok sc ∧ s.enter p id =
            (.ok sc, { s with scopes := s.scopes.insert id sc })) ∨
          ∃ e, Scope.ofModule m = .error e ∧ s.enter p id =
            (.error e, { s with failed := s.failed.insert id e }))) := by
  unfold enter
  cases s.failed.find? id with
  | some e => exact .inl rfl
  | none =>
      cases hsc : s.scopes.find? id with
      | some sc => exact .inl rfl
      | none =>
          cases hm : p.module? id with
          | none => exact .inl rfl
          | some m =>
              cases ho : Scope.ofModule m with
              | ok sc => exact .inr ⟨rfl, m, rfl, .inl ⟨sc, ho, by simp only [ho]⟩⟩
              | error e => exact .inr ⟨rfl, m, rfl, .inr ⟨e, ho, by simp only [ho]⟩⟩

end Entering

section SoundSessions

/-- The scopes of a session, and the reasons for which others could not be built, are those of the
program. -/
structure Sound (p : Program) (s : Session) : Prop where
  scope : ∀ {id sc}, s.scopes.find? id = some sc → p.symbols id = .ok sc.symbols ∧ sc.id = id
  failed : ∀ {id e}, s.failed.find? id = some e → p.symbols id = .error e

theorem sound_new : Session.new.Sound p where
  scope h := by cases h
  failed h := by cases h

theorem Sound.entered (hs : s.Sound p) (h : s.scopes.find? id = some sc) : s.Entered id sc := by
  refine ⟨h, Option.eq_none_iff_forall_ne_some.mpr fun e he => ?_⟩
  have hok := (hs.scope h).1
  rw [hs.failed he] at hok
  cases hok

/-- Entering a module tells what the module declares. -/
theorem Sound.enter_symbols (hs : s.Sound p) (id : String) :
    (s.enter p id).1.map Scope.symbols = p.symbols id := by
  unfold Session.enter
  cases hfailed : s.failed.find? id with
  | some e => exact (hs.failed hfailed).symm
  | none =>
      cases hsc : s.scopes.find? id with
      | some sc => exact (hs.scope hsc).1.symm
      | none =>
          cases hm : p.module? id with
          | none => simp [Program.symbols, hm, Except.map]
          | some m =>
              cases ho : Scope.ofModule m with
              | ok sc => simp [Program.symbols, hm, ho, Except.map, (Scope.ofModule_eq_ok ho).1]
              | error e => simp [Program.symbols, hm, ho, Except.map, Scope.ofModule_eq_error ho]

theorem Sound.symbols_of_enter (hs : s.Sound p) (h : s.enter p id = (.ok sc, s')) :
    p.symbols id = .ok sc.symbols := by
  have hsymbols := hs.enter_symbols id
  rw [h] at hsymbols
  exact hsymbols.symm

theorem Sound.error_of_enter (hs : s.Sound p) {e : InferError}
    (h : s.enter p id = (.error e, s')) : p.symbols id = .error e := by
  have hsymbols := hs.enter_symbols id
  rw [h] at hsymbols
  exact hsymbols.symm

/-- A module can be entered if its declarations can be listed. -/
theorem Sound.exists_enter (hs : s.Sound p) {symbols : Symbols} (h : p.symbols id = .ok symbols) :
    ∃ sc s', s.enter p id = (.ok sc, s') ∧ sc.symbols = symbols := by
  rcases henter : s.enter p id with ⟨e | sc, s'⟩
  · cases h.symm.trans (hs.error_of_enter henter)
  · exact ⟨sc, s', rfl, Except.ok.inj ((hs.symbols_of_enter henter).symm.trans h)⟩

/-- Entering a module comes to the same in all sound sessions. -/
theorem Sound.enter_like {t : Session} (hs : s.Sound p) (ht : t.Sound p) (id : String) :
    ExceptRel Eq (fun a b : Scope => a.symbols = b.symbols ∧ p.symbols id = .ok a.symbols)
      (s.enter p id).1 (t.enter p id).1 := by
  have hsymbols := hs.enter_symbols id
  have hsymbols' := ht.enter_symbols id
  generalize (s.enter p id).1 = r, (t.enter p id).1 = r' at hsymbols hsymbols'
  cases r with
  | error e =>
      cases r' with
      | error e' => exact Except.error.inj (hsymbols.trans hsymbols'.symm)
      | ok b => cases hsymbols.trans hsymbols'.symm
  | ok a =>
      cases r' with
      | error e' => cases hsymbols.trans hsymbols'.symm
      | ok b => exact ⟨Except.ok.inj (hsymbols.trans hsymbols'.symm), hsymbols.symm⟩

theorem Sound.enter (hs : s.Sound p) (id : String) : (s.enter p id).2.Sound p := by
  rcases enter_cases p s id with h | ⟨_, m, hm, ⟨sc, hsc, h⟩ | ⟨e, he, h⟩⟩
  · rwa [h]
  · have hsymbols := hs.symbols_of_enter h
    rw [h]
    refine ⟨fun {id' sc'} h' => ?_, hs.failed⟩
    dsimp only at h'
    rw [Table.find?_insert] at h'
    split at h'
    · next hid =>
        cases h'
        subst hid
        exact ⟨hsymbols, by rw [(Scope.ofModule_eq_ok hsc).2.1, p.id_eq hm]⟩
    · exact hs.scope h'
  · have hsymbols := hs.error_of_enter h
    rw [h]
    refine ⟨hs.scope, fun {id' e'} h' => ?_⟩
    dsimp only at h'
    rw [Table.find?_insert] at h'
    split at h'
    · next hid =>
        cases h'
        exact hid ▸ hsymbols
    · exact hs.failed h'

theorem Sound.of_enter (hs : s.Sound p) {r : Except InferError Scope}
    (h : s.enter p id = (r, s')) : s'.Sound p := by
  have hs' := hs.enter id
  rwa [h] at hs'

theorem Sound.find?_of_enter_error (hs : s.Sound p) {e : InferError}
    (h : s.enter p id = (.error e, s')) : s'.scopes.find? id = none := by
  refine Option.eq_none_iff_forall_ne_some.mpr fun sc hsc => ?_
  have hok := ((hs.of_enter h).scope hsc).1
  rw [hs.error_of_enter h] at hok
  cases hok

end SoundSessions

/-- The scopes of a session lead to nothing else than what may be remembered, and no module has
failed for want of a struct. Unlike a sound session, it may have served several programs. -/
structure Within (known : String → Memo → Prop) (s : Session) : Prop where
  scope : ∀ {id sc}, s.scopes.find? id = some sc → sc.symbols.Within (known id)
  failed : ∀ {id e}, s.failed.find? id = some e → e.isUnknownStruct = false

theorem Sound.within {known : String → Memo → Prop} (hs : s.Sound p) (hp : p.Within known) :
    s.Within known :=
  ⟨fun hsc => hp.symbols (hs.scope hsc).1, fun he => Program.symbols_error (hs.failed he)⟩

namespace Within

variable {known : String → Memo → Prop}

theorem new : Session.new.Within known where
  scope h := by cases h
  failed h := by cases h

theorem enter (hs : s.Within known) (hp : p.Within known) (id : String) :
    (s.enter p id).2.Within known := by
  rcases enter_cases p s id with h | ⟨_, m, hm, ⟨sc, hsc, h⟩ | ⟨e, he, h⟩⟩
  · rwa [h]
  · rw [h]
    refine ⟨fun {id' sc'} h' => ?_, hs.failed⟩
    dsimp only at h'
    rw [Table.find?_insert] at h'
    split at h'
    · next hid =>
        cases h'
        exact hid ▸ Symbols.within_of_module (Scope.ofModule_eq_ok hsc).1 (hp id m hm)
    · exact hs.scope h'
  · rw [h]
    refine ⟨hs.scope, fun {id' e'} h' => ?_⟩
    dsimp only at h'
    rw [Table.find?_insert] at h'
    split at h'
    · cases h'
      exact Symbols.ofModule_error (Scope.ofModule_eq_error he)
    · exact hs.failed h'

theorem of_enter (hs : s.Within known) (hp : p.Within known) {r : Except InferError Scope}
    (h : s.enter p id = (r, s')) : s'.Within known := by
  have hs' := hs.enter hp id
  rwa [h] at hs'

theorem symbols_of_enter (hs : s.Within known) (hp : p.Within known)
    (h : s.enter p id = (.ok sc, s')) : sc.symbols.Within (known id) :=
  (hs.of_enter hp h).scope (entered_of_enter h).scope

theorem enter_error (hs : s.Within known) {e : InferError}
    (h : s.enter p id = (.error e, s')) : e.isUnknownStruct = false := by
  unfold Session.enter at h
  split at h
  · next hfailed =>
      cases h
      exact hs.failed hfailed
  · split at h
    · cases h
    · split at h
      · cases h
        rfl
      · split at h
        · cases h
        · next he =>
            cases h
            exact Symbols.ofModule_error (Scope.ofModule_eq_error he)

end Within

section Updating

@[simp] theorem failed_update (change : Scope → Scope) :
    (s.update id change).failed = s.failed := by
  unfold update
  split <;> rfl

@[simp] theorem drawn_update (change : Scope → Scope) :
    (s.update id change).drawn = s.drawn := by
  unfold update
  split <;> rfl

theorem find?_update (change : Scope → Scope) (id' : String) :
    (s.update id change).scopes.find? id' =
      if id' = id then (s.scopes.find? id).map change else s.scopes.find? id' := by
  unfold update
  cases h : s.scopes.find? id with
  | none =>
      by_cases hid : id' = id
      · simp [hid, h]
      · simp [hid]
  | some sc => simp

theorem find?_update_self (change : Scope → Scope) :
    (s.update id change).scopes.find? id = (s.scopes.find? id).map change := by
  rw [find?_update, if_pos rfl]

theorem Entered.update (h : s.Entered id sc) (change : Scope → Scope) :
    (s.update id change).Entered id (change sc) :=
  ⟨by rw [find?_update_self, h.scope, Option.map_some], by rw [failed_update, h.failed]⟩

theorem Sound.update (hs : s.Sound p) {change : Scope → Scope}
    (hsymbols : ∀ sc, (change sc).symbols = sc.symbols) (hid : ∀ sc, (change sc).id = sc.id) :
    (s.update id change).Sound p where
  scope {id' sc} h := by
    rw [find?_update] at h
    split at h
    · next heq =>
        obtain ⟨sc₀, hsc₀, rfl⟩ := Option.map_eq_some_iff.mp h
        rw [hsymbols, hid, heq]
        exact hs.scope hsc₀
    · exact hs.scope h
  failed h := by
    rw [failed_update] at h
    exact hs.failed h

/-- Draw a name for a type written in place and note it. -/
def nameInPlace (s : Session) (home : String) (span : Span) (kind : InPlaceKind) : Session :=
  (s.draw kind).2.update home (·.addInPlace span kind (s.draw kind).1)

theorem failed_nameInPlace (home : String) (span : Span) (kind : InPlaceKind) :
    (s.nameInPlace home span kind).failed = s.failed :=
  failed_update _

theorem drawn_nameInPlace (home : String) (span : Span) (kind : InPlaceKind) :
    (s.nameInPlace home span kind).drawn = s.drawn + 1 :=
  drawn_update _

theorem find?_nameInPlace (home : String) (span : Span) (kind : InPlaceKind) (id : String) :
    (s.nameInPlace home span kind).scopes.find? id =
      if id = home then (s.scopes.find? home).map (·.addInPlace span kind (s.draw kind).1)
      else s.scopes.find? id :=
  find?_update _ _

theorem Entered.nameInPlace (h : s.Entered id sc) (span : Span) (kind : InPlaceKind) :
    (s.nameInPlace id span kind).Entered id (sc.addInPlace span kind (s.draw kind).1) := by
  have hdraw : (s.draw kind).2.Entered id sc := ⟨h.scope, h.failed⟩
  exact hdraw.update _

theorem Sound.nameInPlace (hs : s.Sound p) (home : String) (span : Span) (kind : InPlaceKind) :
    (s.nameInPlace home span kind).Sound p := by
  have hdraw : (s.draw kind).2.Sound p := ⟨hs.scope, hs.failed⟩
  exact hdraw.update (fun _ => rfl) fun _ => rfl

theorem Within.nameInPlace {known : String → Memo → Prop} (hs : s.Within known) (home : String)
    (span : Span) (kind : InPlaceKind) : (s.nameInPlace home span kind).Within known where
  scope {id' sc'} h := by
    rw [find?_nameInPlace] at h
    split at h
    · next hid =>
        obtain ⟨sc₀, hsc₀, rfl⟩ := Option.map_eq_some_iff.mp h
        have hsymbols : sc₀.symbols.Within (known home) := hs.scope hsc₀
        exact hid ▸ hsymbols
    · exact hs.scope h
  failed h := hs.failed (failed_nameInPlace home span kind ▸ h)

end Updating

end Session

end ResourceLint
