import ResourceLint.Proofs.Correspondence
import ResourceLint.Proofs.Holding
import ResourceLint.Proofs.Words

/-!
# Confined inferences

Inferences start from names in the syntax and from a module, and come to other names and modules on
their way. A `Confinement` says which names and modules they cannot leave: names do not lead to
other modules than those that may be entered, and two programs agree on these modules. Then all
inferences are the same in both programs, types are made of such names and belong to such modules,
and so does everything that a session remembers.
-/

namespace ResourceLint

open Inference InferM

namespace Predeclared

/-- The name is the canonical one where there are several for one type. -/
def IsCanonical (name : String) : Prop :=
  canonical? name = none ∨ canonical? name = some name

theorem mem_of_canonical? {name c : String} (h : canonical? name = some c) :
    c ∈ ["bool", "float", "int"] := by
  unfold canonical? at h
  split at h <;> cases h <;> decide

theorem isCanonical_getD (name : String) : IsCanonical ((canonical? name).getD name) := by
  cases h : canonical? name with
  | none => exact .inl h
  | some c =>
      have hself : ∀ c ∈ ["bool", "float", "int"], canonical? c = some c := by decide
      exact .inr (hself c (mem_of_canonical? h))

end Predeclared

/-- Types made of certain names that belong to certain modules. Each is like itself only. -/
def Likeness.confined (word owner : String → Prop) : Likeness where
  name := Eq
  word := word
  owner := owner
  simple s := word s.name ∧
    match s.owner with
    | some o => owner o
    | none => Predeclared.IsCanonical s.name
  err := Eq

theorem Likeness.confined_lawful {word owner : String → Prop}
    (hbasic : ∀ name ∈ ["bool", "float", "int", "map", "string"], word name) :
    (Likeness.confined word owner).Lawful where
  name_refl _ := rfl
  err_refl _ _ := rfl
  basic := hbasic
  reference hw ho := ⟨hw, ho⟩
  predeclared {name} hw := by
    refine ⟨?_, Predeclared.isCanonical_getD name⟩
    cases h : Predeclared.canonical? name with
    | none => exact hw
    | some c =>
        have hsubset : ["bool", "float", "int"] ⊆ ["bool", "float", "int", "map", "string"] := by
          decide
        exact hbasic c (hsubset (Predeclared.mem_of_canonical? h))
  simple_word h := h.1
  simple_owner h ho := by
    obtain ⟨_, howner⟩ := h
    rwa [ho] at howner
  err_isUnknownStruct h := congrArg _ h
  err_type {k _ _} _ h := congrArg (fun t : Ty => k t.qualifiedName) (Ty.eq_of_like id h)
  err_result i h := congrArg (fun f : Signature => InferError.missingResult f.name i)
    (Signature.eq_of_like id h)

/-- Everything that the session remembers is alright: the types and signatures, and the names drawn
for types written in place. -/
structure Session.Vouched (p : Program) (l : Likeness) (s : Session) : Prop where
  sound : s.Sound p
  entry : ∀ {id sc kind name t}, s.scopes.find? id = some sc → sc.entry kind name = some t →
    Ty.Like l t t
  drawn : ∀ {id sc span kind name}, s.scopes.find? id = some sc →
    sc.inPlaceName? span kind = some name → l.word name

namespace Session.Vouched

variable {p : Program} {l : Likeness} {s s' s₀ : Session} {home name : String} {kind : InPlaceKind}

theorem holds (h : s.Vouched p l) : s.Holds (fun _ _ _ t => Ty.Like l t t) fun _ => l.word :=
  ⟨h.entry, h.drawn⟩

theorem of_holds (hs : s.Sound p) (h : s.Holds (fun _ _ _ t => Ty.Like l t t) fun _ => l.word) :
    s.Vouched p l :=
  ⟨hs, h.entry, h.drawn⟩

theorem new : Session.new.Vouched p l :=
  .of_holds sound_new .new

theorem enter (h : s.Vouched p l) (id : String) : (s.enter p id).2.Vouched p l :=
  .of_holds (h.sound.enter id) (h.holds.enter p id)

theorem opening (h : s.Vouched p l)
    (hdrawn : ∀ (kind : InPlaceKind) (n : Nat), l.word (kind.text ++ padded n)) {slot : Slot}
    (hopen : Opening home s slot name s₀) : s₀.Vouched p l :=
  .of_holds (hopen.sound h.sound) (h.holds.opening hdrawn hopen)

/-- A type is worked out under a name that types may have. -/
theorem word (h : s.Vouched p l)
    (hdrawn : ∀ (kind : InPlaceKind) (n : Nat), l.word (kind.text ++ padded n)) {memo : Memo}
    (hown : ∀ w ∈ memo.ownNames, l.word w) (hopen : Opening home s memo.slot name s₀)
    (hkind : memo.slot.kind = .struct) : l.word name := by
  cases memo with
  | type d =>
      rw [show name = d.name from hopen.name_eq]
      exact hown _ (List.mem_singleton_self _)
  | struct span fields =>
      cases hopen with
      | known hsc hname => exact h.drawn hsc hname
      | drawn => exact hdrawn _ _
  | function f => cases hkind
  | func span params results => cases hkind

theorem opened (h : s.Vouched p l) (hname : kind = .struct → l.simple ⟨name, some home⟩) :
    (s.opened home kind name).Vouched p l :=
  .of_holds ((SameBut.opened ..).sound h.sound)
    (h.holds.opened fun hkind => Ty.like_iff.mpr (.simple (hname hkind)))

theorem closed (h : s.Vouched p l) {r : Except InferError Ty}
    (hr : ∀ t, r = .ok t → t.Defines name home kind ∧ Ty.Like l t t) :
    (s.closed home kind name r).Vouched p l :=
  .of_holds ((SameBut.closed ..).sound h.sound) (h.holds.closed hr)

end Session.Vouched

namespace InferM

variable {α β γ δ : Type} {I : Session → Prop} {R : α → β → Prop} {S : γ → δ → Prop}
  {x : InferM α} {y : InferM β}

/-- From every session with a property both come to related outcomes and leave the same session
behind, which has the property again. -/
def Together (I : Session → Prop) (R : α → β → Prop) (x : InferM α) (y : InferM β) : Prop :=
  ∀ s, I s → Option.Rel (fun a b => a.2 = b.2 ∧ I a.2 ∧ ExceptRel Eq R a.1 b.1) (x s) (y s)

theorem together_pure {a : α} {b : β} (h : R a b) : Together I R (pure a) (pure b) :=
  fun _ hs => .some ⟨rfl, hs, h⟩

theorem Together.mono {R' : α → β → Prop} (h : Together I R x y) (hR : ∀ a b, R a b → R' a b) :
    Together I R' x y := by
  intro s hs
  have hxy := h s hs
  generalize x s = a, y s = b at hxy
  rcases hxy with ⟨hsame, hs', hrq⟩ | _
  · exact .some ⟨hsame, hs', hrq.mono (fun _ _ he => he) hR⟩
  · exact .none

theorem Together.outcome {x : InferM α} {R : α → α → Prop} (h : Together I R x x) {s s' : Session}
    (hs : I s) {r : Except InferError α} (hx : x s = some (r, s')) :
    I s' ∧ ∀ a, r.toOption = some a → R a a := by
  have hxx := h s hs
  rw [hx] at hxx
  cases hxx with
  | some hxx =>
      refine ⟨hxx.2.1, fun a ha => ?_⟩
      cases r with
      | ok b =>
          cases ha
          exact hxx.2.2
      | error _ => cases ha

theorem together_fail {e e' : InferError} (h : e = e') : Together I R (fail e) (fail e') :=
  fun _ hs => .some ⟨rfl, hs, h⟩

theorem together_bind {f : α → InferM γ} {g : β → InferM δ} (h : Together I R x y)
    (hfg : ∀ a b, R a b → Together I S (f a) (g b)) : Together I S (x >>= f) (y >>= g) := by
  intro s hs
  have hxy := h s hs
  rw [bind_apply, bind_apply]
  generalize x s = a, y s = b at hxy
  rcases hxy with @⟨⟨r, s₁⟩, ⟨q, s₂⟩, hsame, hs₁, hrq⟩ | _
  · obtain rfl : s₁ = s₂ := hsame
    cases r with
    | ok a =>
        cases q with
        | ok b => exact hfg a b hrq s₁ hs₁
        | error _ => cases hrq
    | error e =>
        cases q with
        | ok _ => cases hrq
        | error e' => exact .some ⟨rfl, hs₁, hrq⟩
  · exact .none

theorem together_attempt (h : Together I R x y) :
    Together I (ExceptRel Eq R) (attempt x) (attempt y) := by
  intro s hs
  have hxy := h s hs
  unfold attempt
  generalize x s = a, y s = b at hxy
  rcases hxy with @⟨⟨r, s₁⟩, ⟨q, s₂⟩, hsame, hs₁, hrq⟩ | _
  · exact .some ⟨hsame, hs₁, hrq⟩
  · exact .none

end InferM

structure Confinement (p p' : Program) where
  /-- The names that types may have. -/
  word : String → Prop
  /-- The modules that may be entered. -/
  enters : String → Prop
  basic : ∀ name ∈ ["bool", "float", "int", "map", "string"], word name
  drawn : ∀ (kind : InPlaceKind) (n : Nat), word (kind.text ++ Session.padded n)
  split : ∀ {name home}, word name → enters home → enters (QualifiedName.split name home).2
  agrees : p.AgreesOn enters p'
  words : ∀ {id m}, enters id → p.module? id = some m → ∀ w ∈ m.words, word w

namespace Confinement

variable {p p' : Program} (c : Confinement p p') {home : String}

/-- Types belong to modules that can be entered with success. -/
def owner (home : String) : Prop :=
  c.enters home ∧ (p.module? home).isSome = true

def like : Likeness :=
  .confined c.word c.owner

def Vouched (s : Session) : Prop :=
  s.Vouched p c.like

theorem eq_of_like {r q : Except InferError Ty} (h : ExceptRel Eq (Ty.Like c.like) r q) : r = q :=
  exceptRel_eq_iff.mp (h.mono (fun _ _ he => he) fun _ _ => Ty.eq_of_like id)

theorem enter_eq (s : Session) (hhome : c.enters home) : s.enter p home = s.enter p' home := by
  unfold Session.enter
  rw [c.agrees.module? hhome]

theorem owner_of_symbols {symbols : Symbols} (hhome : c.enters home)
    (h : p.symbols home = .ok symbols) : c.owner home := by
  obtain ⟨m, hm, _⟩ := Program.symbols_eq_ok h
  exact ⟨hhome, by rw [hm, Option.isSome_some]⟩

/-- Both sides enter a module in the same way, and nothing is remembered in it that is not
alright. -/
theorem together_scope (hhome : c.enters home) :
    Together c.Vouched (fun a b : Scope => a = b ∧ p.symbols home = .ok a.symbols ∧
      ∀ {kind name t}, a.entry kind name = some t → Ty.Like c.like t t)
      (scope p home) (scope p' home) := by
  intro s hs
  rw [scope_apply, scope_apply, ← c.enter_eq s hhome]
  have hs' := hs.enter home
  refine .some ⟨rfl, hs', ?_⟩
  rcases henter : s.enter p home with ⟨e | sc, s₁⟩
  · exact rfl
  · rw [henter] at hs'
    exact ⟨rfl, hs.sound.symbols_of_enter henter,
      fun ht => hs'.entry (Session.entered_of_enter henter).scope ht⟩

def correspondence : Correspondence p p' where
  like := c.like
  lawful := Likeness.confined_lawful c.basic
  enters := c.enters
  enters_owner h := h.1
  enters_split := c.split
  agrees := c.agrees
  declared home symbols := c.enters home ∧ p.symbols home = .ok symbols
  holds := Together c.Vouched
  holds_pure := together_pure
  holds_fail := together_fail
  holds_bind := together_bind
  holds_scope {home} hhome := by
    refine (c.together_scope hhome).mono fun a b ⟨hab, hsymbols, _⟩ => ?_
    exact ⟨congrArg _ hab, c.owner_of_symbols hhome hsymbols, hhome, hsymbols⟩

theorem tolerant : c.correspondence.Tolerant :=
  together_attempt

/-- Questions about confined subjects have related answers. -/
def Asks (ask ask' : Ask) : Prop :=
  ∀ x home, c.owner home → (∀ w ∈ x.words, c.word w) →
    c.correspondence.holds (Ty.Like c.like) (ask x home) (ask' x home)

variable {c} {ask ask' : Ask} (asks : c.Asks ask ask')

include asks

theorem Asks.of_words (hhome : c.owner home) {words : List String} (hwords : ∀ w ∈ words, c.word w)
    {questions : List Subject} (h : ∀ y ∈ questions, y.words ⊆ words) :
    c.correspondence.Asks ask ask' home questions :=
  fun y hy => asks y home hhome fun w hw => hwords w (h y hy hw)

theorem Asks.types : c.correspondence.Types ask ask' := by
  intro home symbols name d howner ⟨hhome, hsymbols⟩ hd
  obtain ⟨m, hm, hok⟩ := Program.symbols_eq_ok hsymbols
  refine asks (.decl d) home howner fun w hw => c.words hhome hm w ?_
  exact m.words_of_type (Symbols.type_of_find? hok hd).1 hw

theorem Asks.fields : c.correspondence.Fields ask ask' :=
  c.correspondence.fieldsIfAny asks.types c.tolerant fun _ _ => rfl

theorem Asks.memo (hhome : c.owner home) {memo : Memo} (hnamed : memo.isNamed = true)
    (hwords : ∀ w ∈ memo.words, c.word w) :
    c.correspondence.holds (Ty.Like c.like) (memo.infer p ask home) (memo.infer p' ask' home) := by
  intro s hs
  have henters := c.enter_eq s hhome.1
  have hs₁ := hs.enter home
  rcases henter : s.enter p home with ⟨e | sc, s₁⟩
  · rw [henter] at henters hs₁
    rw [Memo.infer_error hnamed henter, Memo.infer_error hnamed henters.symm]
    exact .some ⟨rfl, hs₁, rfl⟩
  · rw [henter] at henters hs₁
    have hentered := Session.entered_of_enter henter
    rw [Memo.infer_of_enter hnamed henter, Memo.infer_of_enter hnamed henters.symm]
    cases ht : sc.recalled? memo.slot with
    | some t =>
        rw [Memo.infer_hit hnamed hentered ht, Memo.infer_hit hnamed hentered ht]
        obtain ⟨name, _, hentry⟩ := Option.bind_eq_some_iff.mp ht
        exact .some ⟨rfl, hs₁, hs₁.entry hentered.scope hentry⟩
    | none =>
        obtain ⟨name, s₀, hopen, hinfer⟩ := Memo.infer_miss hnamed hentered ht
        have hown : ∀ w ∈ memo.ownNames, c.word w := fun w hw =>
          hwords w (memo.ownNames_subset hw)
        have hword : memo.slot.kind = .struct → c.word name := hs₁.word c.drawn hown hopen
        have hopened := (hs₁.opening c.drawn hopen).opened fun hkind => ⟨hword hkind, hhome⟩
        have hbuild := c.correspondence.build asks.fields c.tolerant hhome rfl hword hown
          (asks.of_words hhome hwords fun _ => Memo.words_of_question) _ hopened
        rw [hinfer p ask, hinfer p' ask', Memo.settled, Memo.settled]
        generalize hx : memo.build p ask home name _ = a, memo.build p' ask' home name _ = b
          at hbuild
        rcases hbuild with @⟨⟨r, s₂⟩, ⟨q, s₃⟩, hsame, hs₂, hrq⟩ | _
        · obtain rfl : s₂ = s₃ := hsame
          -- The answers are equal, so both sides keep the same one.
          obtain rfl := c.eq_of_like hrq
          refine .some ⟨rfl, hs₂.closed ?_, hrq⟩
          rintro t rfl
          exact ⟨Memo.build_defines hopen hx, hrq⟩
        · exact .none

theorem Asks.signature (hhome : c.enters home) (key : String) :
    c.correspondence.holds (Signature.Like c.like) (namedSignature p ask key home)
      (namedSignature p' ask' key home) := by
  refine together_bind (c.together_scope hhome) fun sc sc' ⟨heq, hsymbols, hentry⟩ => ?_
  subst heq
  cases hsig : sc.signatures.find? key with
  | some sig =>
      have ht : sc.entry .func key = some (.func sig) := by
        rw [Scope.entry, hsig, Option.map_some]
      cases (hentry ht).form with
      | func hlike => exact together_pure hlike
  | none =>
      cases hf : sc.symbols.functions.find? key with
      | none => exact together_fail rfl
      | some f =>
          obtain ⟨m, hm, hok⟩ := Program.symbols_eq_ok hsymbols
          have howner := c.owner_of_symbols hhome hsymbols
          refine c.correspondence.declaredSignature fun hnamed => ?_
          refine asks.memo howner hnamed fun w hw => c.words hhome hm w ?_
          exact m.words_of_function (Symbols.function_of_find? hok hf).1 hw

theorem Asks.names : c.correspondence.Names ask ask' where
  fields := asks.fields
  signatures h _ := asks.signature h.1 _
  unequal _ _ hname hne := absurd hname hne
  types := asks.types
  values {home symbols name spec} howner h hspec := by
    obtain ⟨m, hm, hok⟩ := Program.symbols_eq_ok h.2
    refine asks.of_words howner (fun w hw => c.words h.1 hm w ?_)
      fun _ => ValueSpec.words_of_question
    exact m.words_of_value (Symbols.value_of_find? hok hspec).1 hw

omit asks

theorem asks_infer (c : Confinement p p') (depth : Nat) :
    c.Asks (infer p depth) (infer p' depth) := by
  induction depth with
  | zero =>
      intro x home _ _ s hs
      exact .none
  | succ depth ih =>
      intro x home hhome hwords
      cases x with
      | expr e =>
          refine c.correspondence.exprType ih.names hhome
            (fun w hw => hwords w (e.ownNames_subset hw))
            (ih.of_words hhome hwords fun _ => Expr.words_of_question) fun memo hmemo hnamed => ?_
          exact ih.memo hhome hnamed fun w hw => hwords w (Expr.words_of_remembers hmemo hw)
      | decl d =>
          have hnamed : (Memo.type d).isNamed = true := rfl
          exact ih.memo hhome hnamed hwords

end Confinement

end ResourceLint
