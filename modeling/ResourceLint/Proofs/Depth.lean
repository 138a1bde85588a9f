import ResourceLint.Check
import ResourceLint.Proofs.Comparison
import ResourceLint.Proofs.Outcome

/-!
# Depth

An inference that comes to an end within a depth has the same outcome at every greater depth, and
leaves the same session behind. This goes for everything that is put together from inferences.
-/

namespace ResourceLint

open Inference InferM

namespace Depth

/-- Every outcome of the first inference is one of the second. -/
def comparison (p : Program) : Comparison p where
  like := .exact Eq
  lawful := Likeness.exact_eq_lawful
  word _ := trivial
  known _ _ := True
  declared _ _ := True
  within _ := ⟨fun _ _ _ => trivial, fun _ _ _ => trivial, fun _ _ _ => trivial⟩
  holds R x y := ∀ s r s', x s = some (r, s') → ∃ r', y s = some (r', s') ∧ ExceptRel Eq R r r'
  holds_pure h := by
    rintro s r s' hx
    cases hx
    exact ⟨_, rfl, h⟩
  holds_fail h := by
    rintro s r s' hx
    cases hx
    exact ⟨_, rfl, h⟩
  holds_bind := by
    intro α β γ δ R S x y f g hx hf s r s' h
    rcases bind_eq_some.mp h with ⟨a, s₁, ha, hfa⟩ | ⟨e, he, rfl⟩
    · obtain ⟨q, hy, hq⟩ := hx s _ s₁ ha
      cases q with
      | error _ => cases hq
      | ok b =>
          obtain ⟨r', hg, hr⟩ := hf a b hq s₁ r s' hfa
          exact ⟨r', bind_eq_some.mpr (.inl ⟨b, s₁, hy, hg⟩), hr⟩
    · obtain ⟨q, hy, hq⟩ := hx s _ s' he
      cases q with
      | ok _ => cases hq
      | error e' => exact ⟨_, bind_eq_some.mpr (.inr ⟨e', hy, rfl⟩), hq⟩
  holds_scope home := by
    intro s r s' h
    refine ⟨r, h, ?_⟩
    cases r with
    | ok a => exact ⟨rfl, trivial, trivial⟩
    | error e => exact rfl

variable {p : Program} {ask ask' : Ask}

theorem same {α : Type} (x : InferM α) : (comparison p).holds Eq x x :=
  fun _ r _ h => ⟨r, h, exceptRel_eq_iff.mpr rfl⟩

theorem holds_eq_iff {α : Type} {x y : InferM α} : (comparison p).holds Eq x y ↔ x ≤ y := by
  constructor
  · rintro h s ⟨r, s'⟩ hx
    obtain ⟨r', hy, hr⟩ := h s r s' hx
    rwa [exceptRel_eq_iff.mp hr]
  · exact fun h s r s' hx => ⟨r, h s _ hx, exceptRel_eq_iff.mpr rfl⟩

theorem holds_like_iff {x y : InferM Ty} :
    (comparison p).holds (Ty.Like (.exact Eq)) x y ↔ x ≤ y := by
  rw [← holds_eq_iff (p := p)]
  exact ⟨fun h => (comparison p).holds_mono h fun t u => (Ty.like_exact_iff t u).mp,
    fun h => (comparison p).holds_mono h fun t u => (Ty.like_exact_iff t u).mpr⟩

theorem tolerant : (comparison p).Tolerant := by
  intro α β R x y h s r s' hx
  obtain ⟨q, hq, rfl⟩ := attempt_eq_some.mp hx
  obtain ⟨q', hy, hr⟩ := h s q s' hq
  exact ⟨_, attempt_eq_some.mpr ⟨q', hy, rfl⟩, hr⟩

variable (asks : (comparison p).Asks ask ask')

include asks

theorem fields : (comparison p).Fields ask ask' :=
  (comparison p).fieldsIfAny asks tolerant fun _ _ => rfl

theorem build_le (memo : Memo) (home name : String) :
    memo.build p ask home name ≤ memo.build p ask' home name :=
  holds_like_iff.mp ((comparison p).build asks (fields asks) trivial tolerant rfl
    fun _ _ => trivial)

theorem memo (memo : Memo) {home : String} (hmemo : memo.isNamed = true) :
    (comparison p).holds (Ty.Like (.exact Eq)) (memo.infer p ask home)
      (memo.infer p ask' home) := by
  rw [holds_like_iff]
  rintro s ⟨r, s'⟩ h
  rcases henter : s.enter p home with ⟨e | sc, s₁⟩
  · rw [Memo.infer_error hmemo henter] at h ⊢
    exact h
  · have hentered := Session.entered_of_enter henter
    rw [Memo.infer_of_enter hmemo henter] at h ⊢
    cases ht : sc.recalled? memo.slot with
    | some t =>
        rw [Memo.infer_hit hmemo hentered ht] at h ⊢
        exact h
    | none =>
        obtain ⟨name, s₀, _, hinfer⟩ := Memo.infer_miss hmemo hentered ht
        rw [hinfer] at h ⊢
        obtain ⟨outcome, hbuild, heq⟩ := Option.map_eq_some_iff.mp h
        exact Option.map_eq_some_iff.mpr ⟨outcome, build_le asks memo home name _ _ hbuild, heq⟩

theorem memory : (comparison p).Memory ask ask' where
  memo _ hmemo _ := memo asks _ hmemo
  namedSignature {key home _} _ _ := by
    unfold namedSignature
    refine (comparison p).holds_bind (same (scope p home)) fun a b hab => ?_
    subst hab
    cases a.signatures.find? key with
    | some known => exact (comparison p).holds_pure ((Signature.like_exact_iff _ _).mpr rfl)
    | none =>
        cases a.symbols.functions.find? key with
        | some f => exact (comparison p).declaredSignature fun hnamed => memo asks _ hnamed
        | none => exact (comparison p).holds_fail_same _ rfl
  fields := fields asks
  unequal _ _ hname hne := absurd hname hne

omit asks

theorem asks_succ (depth : Nat) : (comparison p).Asks (infer p depth) (infer p (depth + 1)) := by
  induction depth with
  | zero =>
      intro x home _ _ s r s' h
      cases h
  | succ depth ih =>
      intro x home _ _
      cases x with
      | expr e => exact (comparison p).exprType ih trivial (memory ih) fun _ _ => trivial
      | decl d => exact memo ih (.type d) rfl

end Depth

variable {p : Program}

open Depth

theorem infer_monotone (x : Subject) (home : String) : Monotone (infer p · x home) :=
  monotone_nat_of_le_succ fun depth =>
    holds_like_iff.mp (asks_succ depth x home trivial fun _ _ => trivial)

theorem Depth.asks_le {depth depth' : Nat} (h : depth ≤ depth') :
    (comparison p).Asks (infer p depth) (infer p depth') := fun x home _ _ =>
  holds_like_iff.mpr (infer_monotone x home h)

theorem Program.typeOf_monotone (e : Expr) (home : String) : Monotone (p.typeOf · e home) :=
  infer_monotone (.expr e) home

theorem Program.typeOfMember_monotone (t : Ty) (member home : String) :
    Monotone (p.typeOfMember · t member home) := fun _ _ h =>
  holds_like_iff.mp ((comparison p).typeOfMember (memory (asks_le h))
    ((Ty.like_exact_iff t t).mpr rfl) member home)

theorem Program.fits_monotone (t : Ty) (expected : Expectation) (overrides : Overrides) :
    Monotone (p.fits · t expected overrides) := by
  intro depth depth' h
  have hasks := asks_le (p := p) h
  exact holds_eq_iff.mp ((comparison p).fits tolerant ((Ty.like_exact_iff t t).mpr rfl)
    (fun owner _ => (comparison p).localType hasks (memory hasks) t.name owner) expected overrides)

namespace Check

variable {settings : Settings} {target : ResourceDef}

theorem fitsField_monotone (t : Ty) (field : SchemaField) :
    Monotone fun depth => fitsField p (infer p depth) settings t field := fun _ _ h =>
  bind_le_bind (attempt_le_attempt (Program.fits_monotone t _ _ h)) fun _ => le_rfl

theorem ofSetter_monotone (setter : Setter) :
    Monotone fun depth => ofSetter p (infer p depth) settings target setter := by
  intro depth depth' h
  simp only [ofSetter]
  cases target.schema.find? setter.key with
  | none => exact le_rfl
  | some field =>
      refine bind_le_bind (attempt_le_attempt (Program.typeOf_monotone _ _ h)) fun r => ?_
      split
      · exact le_rfl
      · exact le_rfl
      · exact bind_le_bind (fitsField_monotone _ field h) fun _ => le_rfl

theorem ofSetters_monotone (setters : List Setter) :
    Monotone (ofSetters p · settings target setters) := by
  intro depth depth' h
  induction setters with
  | nil => exact le_rfl
  | cons setter rest ih =>
      exact bind_le_bind (ofSetter_monotone setter h) fun _ => bind_le_bind ih fun _ => le_rfl

theorem ofFunction_monotone (f : FuncDecl) : Monotone (ofFunction p · settings target f) := by
  intro depth depth' h
  simp only [ofFunction]
  cases f.dataParam with
  | named holder => exact ofSetters_monotone _ h
  | unnamed => exact le_rfl
  | unsupported arity => exact le_rfl

theorem ofFunctions_monotone (fs : List FuncDecl) :
    Monotone (ofFunctions p · settings target fs) := by
  intro depth depth' h
  induction fs with
  | nil => exact le_rfl
  | cons f rest ih =>
      exact bind_le_bind (ofFunction_monotone f h) fun _ => bind_le_bind ih fun _ => le_rfl

end Check

end ResourceLint
