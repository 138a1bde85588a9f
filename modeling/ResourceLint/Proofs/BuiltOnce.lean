import ResourceLint.Proofs.Run

/-!
# Scopes are built once

A module is entered with success or with failure, and which of the two depends on the program
alone: on whether the module is loaded, and on whether all its methods have a receiver with a type
name. What a session notes about a module when it first enters it stays as it is, so the module can
never be entered in another way later.
-/

namespace ResourceLint

variable {p : Program} {known : String → Memo → Prop} {s s' s₀ : Session} {id : String}

theorem Program.symbols_eq_error_iff {e : InferError} :
    p.symbols id = .error e ↔ (p.module? id = none ∧ e = .unknownModule id) ∨
      ∃ m f, p.module? id = some m ∧ m.malformed? = some f ∧
        e = .malformedReceiver f.name id := by
  unfold Program.symbols
  cases hm : p.module? id with
  | none => simp [eq_comm]
  | some m => simp [Symbols.ofModule_eq_error_iff, p.id_eq hm]

/-- Only modules that are loaded fail to be built. -/
def Session.FailsLoaded (p : Program) (s : Session) : Prop :=
  ∀ {id e}, s.failed.find? id = some e → ∃ m, p.module? id = some m

theorem Session.FailsLoaded.enter (h : s.FailsLoaded p) (id : String) :
    (s.enter p id).2.FailsLoaded p := by
  rcases enter_cases p s id with heq | ⟨_, m, hm, ⟨sc, _, heq⟩ | ⟨e, _, heq⟩⟩
  · rwa [heq]
  · rw [heq]
    exact h
  · rw [heq]
    intro id' e' he'
    dsimp only at he'
    rw [Table.find?_insert] at he'
    split at he'
    · next hid => exact ⟨m, hid ▸ hm⟩
    · exact h he'

theorem Session.enter_failed {e : InferError} (h : s.failed.find? id = some e) :
    s.enter p id = (.error e, s) := by
  rw [enter, h]

theorem Opening.failed_eq {home name : String} {slot : Slot} (h : Opening home s slot name s₀) :
    s₀.failed = s.failed := by
  cases h with
  | known => rfl
  | drawn => exact Session.failed_update _

theorem Change.failsLoaded (h : Change p known s s') (hs : s.FailsLoaded p) :
    s'.FailsLoaded p := by
  induction h with
  | refl => exact hs
  | trans _ _ ih ih' => exact ih' (ih hs)
  | enter s id => exact hs.enter id
  | @settle home name memo s s₀ s₁ r _ _ hopen _ _ ih =>
      intro id e he
      rw [(Session.SameBut.closed ..).failed] at he
      refine ih (fun {id e} he => ?_) he
      rw [(Session.SameBut.opened ..).failed, hopen.failed_eq] at he
      exact hs he

namespace Session.Sound

theorem built (hs : s.Sound p) {sc : Scope} (h : s.scopes.find? id = some sc) :
    ∃ m sc₀, p.module? id = some m ∧ Scope.ofModule m = .ok sc₀ ∧ sc.id = sc₀.id ∧
      sc.symbols = sc₀.symbols := by
  obtain ⟨hsymbols, hid⟩ := hs.scope h
  obtain ⟨m, hm, hok⟩ := Program.symbols_eq_ok hsymbols
  refine ⟨m, ⟨m.id, sc.symbols, ∅, ∅, []⟩, hm, ?_, ?_, rfl⟩
  · rw [Scope.ofModule, hok]
    rfl
  · rw [hid, p.id_eq hm]

theorem not_built (hs : s.Sound p) (hloaded : s.FailsLoaded p) {e : InferError}
    (h : s.failed.find? id = some e) :
    ∃ m, p.module? id = some m ∧ Scope.ofModule m = .error e := by
  obtain ⟨m, hm⟩ := hloaded h
  have herror : Symbols.ofModule m = .error e := by
    have hfailed := hs.failed h
    rwa [Program.symbols, hm] at hfailed
  refine ⟨m, hm, ?_⟩
  rw [Scope.ofModule, herror]
  rfl

theorem enter_eq_error_iff (hs : s.Sound p) {e : InferError} :
    (s.enter p id).1 = .error e ↔ p.symbols id = .error e := by
  rw [← hs.enter_symbols id]
  cases (s.enter p id).1 <;> simp [Except.map]

end Session.Sound

/-- Whatever has been asked so far: no module is both built and failed; a built scope declares what
the module declares, and entering the module gives that very scope; a failed module is loaded and
fails for the reason that is noted, at once and without another try; and entering a module comes to
the same in every session that can be reached. It fails for modules that are not loaded, and for
those with a method whose receiver has no type name. -/
theorem entered_alike (hrun : Run p (fun _ _ => True) .new s) (id : String) :
    ¬ (s.scopes.contains id = true ∧ s.failed.contains id = true) ∧
    (∀ sc, s.scopes.find? id = some sc → s.enter p id = (.ok sc, s) ∧
      ∃ m sc₀, p.module? id = some m ∧ Scope.ofModule m = .ok sc₀ ∧ sc.id = sc₀.id ∧
        sc.symbols = sc₀.symbols) ∧
    (∀ e, s.failed.find? id = some e → s.enter p id = (.error e, s) ∧
      ∃ m, p.module? id = some m ∧ Scope.ofModule m = .error e) ∧
    (∀ s', Run p (fun _ _ => True) .new s' →
      (s.enter p id).1.map Scope.symbols = (s'.enter p id).1.map Scope.symbols) ∧
    ∀ e, (s.enter p id).1 = .error e ↔ (p.module? id = none ∧ e = .unknownModule id) ∨
      ∃ m f, p.module? id = some m ∧ m.malformed? = some f ∧
        e = .malformedReceiver f.name id := by
  have hp : p.Within fun _ _ => True := fun _ _ _ _ _ => trivial
  have hs := hrun.sound hp
  have hloaded : s.FailsLoaded p :=
    (hrun.change hp Session.sound_new).failsLoaded fun h => by cases h
  refine ⟨?_, fun _ hsc => ⟨(hs.entered hsc).enter_eq, hs.built hsc⟩,
    fun _ he => ⟨Session.enter_failed he, hs.not_built hloaded he⟩, fun s' hrun' => ?_,
    fun e => ?_⟩
  · rintro ⟨hbuilt, hfailed⟩
    rw [Table.contains_eq] at hbuilt hfailed
    obtain ⟨sc, hsc⟩ := Option.isSome_iff_exists.mp hbuilt
    rw [(hs.entered hsc).failed] at hfailed
    cases hfailed
  · rw [hs.enter_symbols, (hrun'.sound hp).enter_symbols]
  · rw [hs.enter_eq_error_iff, Program.symbols_eq_error_iff]

/-- A sound module `m` that declares `type T int`, and a module `broken` with a method
`func (interface{}) Close()`. -/
def soundAndBroken : Program :=
  ((Program.empty []).add ⟨"m", "m", [], [], [⟨"T", ⟨.zero, .ident "int" none⟩, .zero⟩], [], ∅⟩).add
    ⟨"broken", "broken", [],
      [⟨"Close", some ⟨none, ⟨.zero, .interfaceType⟩⟩, [], [], [], .zero⟩], [], [], ∅⟩

theorem soundAndBroken_entered :
    ∃ s s', Run soundAndBroken (fun _ _ => True) .new s ∧
      Run soundAndBroken (fun _ _ => True) .new s' ∧ s.scopes.contains "m" = true ∧
      s.failed.contains "broken" = true ∧ s'.failed.contains "broken" = false ∧
      (s.enter soundAndBroken "m").2 = s ∧
      (s.enter soundAndBroken "m").1.map Scope.symbols =
        (s'.enter soundAndBroken "m").1.map Scope.symbols ∧
      (s'.enter soundAndBroken "broken").1 = .error (.malformedReceiver "Close" "broken") := by
  have hrun : Run soundAndBroken (fun _ _ => True) .new _ :=
    .tail (.single ⟨.scope "broken", trivial, _, rfl⟩) ⟨.topLevelType "T" "m", trivial, _, 4, rfl⟩
  refine ⟨_, _, hrun, .refl, rfl, rfl, rfl, ?_, (entered_alike hrun "m").2.2.2.1 _ .refl, ?_⟩
  · rw [((entered_alike hrun "m").2.1 _ rfl).1]
  · exact ((entered_alike .refl "broken").2.2.2.2 _).mpr (.inr ⟨_, _, rfl, rfl, rfl⟩)

end ResourceLint
