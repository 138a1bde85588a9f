import Mathlib.Order.Monotone.Basic
import Mathlib.Order.Nat
import ResourceLint.Session

/-!
# Outcomes of inferences

Inferences are ordered by their outcomes: a greater one has every outcome of a smaller one, and
may have outcomes where the smaller one is unfinished. An inference that is allowed to look deeper
is greater in this sense. Of a monotone family of inferences it makes sense to say that it ends,
without saying how deep it looks, and what it ends with is determined.
-/

namespace ResourceLint

namespace InferM

variable {α β : Type} {x y : InferM α} {f g : α → InferM β} {s s' : Session}

theorem bind_eq_some {r : Except InferError β} :
    (x >>= f) s = some (r, s') ↔
      (∃ a s₁, x s = some (.ok a, s₁) ∧ f a s₁ = some (r, s')) ∨
        ∃ e, x s = some (.error e, s') ∧ r = .error e := by
  rw [bind_apply]
  rcases x s with _ | ⟨e | a, s₁⟩
  · simp
  · constructor
    · intro h
      cases h
      exact .inr ⟨e, rfl, rfl⟩
    · rintro (⟨_, _, h, _⟩ | ⟨_, h, rfl⟩)
      · cases h
      · cases h
        rfl
  · constructor
    · exact fun h => .inl ⟨a, s₁, rfl, h⟩
    · rintro (⟨_, _, h, hf⟩ | ⟨_, h, _⟩)
      · cases h
        exact hf
      · cases h

theorem attempt_eq_some {r : Except InferError (Except InferError α)} :
    attempt x s = some (r, s') ↔ ∃ q, x s = some (q, s') ∧ r = .ok q := by
  unfold attempt
  rcases x s with _ | ⟨q, _⟩
  · simp
  · simp only [Option.some.injEq, Prod.mk.injEq]
    constructor
    · rintro ⟨rfl, rfl⟩
      exact ⟨q, ⟨rfl, rfl⟩, rfl⟩
    · rintro ⟨_, ⟨rfl, rfl⟩, rfl⟩
      exact ⟨rfl, rfl⟩

@[simp] theorem ofExcept_apply (r : Except InferError α) : ofExcept r s = some (r, s) := rfl

@[simp] theorem scope_apply (p : Program) (id : String) : scope p id s = some (s.enter p id) := rfl

@[simp] theorem updateScope_apply (id : String) (change : Scope → Scope) :
    updateScope id change s = some (.ok (), s.update id change) := rfl

instance : Preorder (InferM α) where
  le x y := ∀ s o, x s = some o → y s = some o
  le_refl _ _ _ h := h
  le_trans _ _ _ hxy hyz s o h := hyz s o (hxy s o h)

theorem bind_le_bind (hxy : x ≤ y) (hfg : ∀ a, f a ≤ g a) : x >>= f ≤ y >>= g := by
  rintro s ⟨r, s'⟩ h
  rcases bind_eq_some.mp h with ⟨a, s₁, hx, hf⟩ | ⟨e, hx, rfl⟩
  · exact bind_eq_some.mpr (.inl ⟨a, s₁, hxy _ _ hx, hfg a _ _ hf⟩)
  · exact bind_eq_some.mpr (.inr ⟨e, hxy _ _ hx, rfl⟩)

theorem attempt_le_attempt (hxy : x ≤ y) : attempt x ≤ attempt y := by
  rintro s ⟨r, s'⟩ h
  obtain ⟨q, hx, rfl⟩ := attempt_eq_some.mp h
  exact attempt_eq_some.mpr ⟨q, hxy _ _ hx, rfl⟩

end InferM

open InferM

/-- An inference comes to an end when it may look deep enough. -/
def Ends {α : Type} (x : Nat → InferM α) (s : Session) (r : Except InferError α)
    (s' : Session) : Prop :=
  ∃ depth, x depth s = some (r, s')

namespace Ends

variable {α β : Type} {x : Nat → InferM α} {f : Nat → α → InferM β} {s s' s'' : Session}

theorem unique (hx : Monotone x) {r r' : Except InferError α} (h : Ends x s r s')
    (h' : Ends x s r' s'') : r = r' ∧ s' = s'' := by
  obtain ⟨d, hd⟩ := h
  obtain ⟨d', hd'⟩ := h'
  have h₁ := hx (Nat.le_max_left d d') s _ hd
  have h₂ := hx (Nat.le_max_right d d') s _ hd'
  rw [h₁] at h₂
  cases h₂
  exact ⟨rfl, rfl⟩

/-- An inference that ends in one way ends in no other. -/
theorem iff_of_ends (hx : Monotone x) {q : Except InferError α} (h : Ends x s q s')
    (r : Except InferError α) (s'' : Session) : Ends x s r s'' ↔ r = q ∧ s'' = s' := by
  constructor
  · exact fun hr => hr.unique hx h
  · rintro ⟨rfl, rfl⟩
    exact h

/-- Inferences that agree from some depth on end in the same way. -/
theorem iff_of_le {y : Nat → InferM α} (hx : Monotone x) (hy : Monotone y) (least : Nat)
    (h : ∀ depth, least ≤ depth → x depth s = y depth s'') {r : Except InferError α} :
    Ends x s r s' ↔ Ends y s'' r s' := by
  constructor
  · rintro ⟨depth, hd⟩
    have hd := hx (Nat.le_max_left depth least) s _ hd
    exact ⟨_, h _ (Nat.le_max_right depth least) ▸ hd⟩
  · rintro ⟨depth, hd⟩
    have hd := hy (Nat.le_max_left depth least) s'' _ hd
    exact ⟨_, (h _ (Nat.le_max_right depth least)).trans hd⟩

/-- An inference whose outcomes are made from those of another one. -/
theorem outcome_iff {y : Nat → InferM β} {s₀ : Session}
    {f : Except InferError α × Session → Except InferError β × Session}
    (h : ∀ depth, y depth s = (x depth s₀).map f) {r : Except InferError β} :
    Ends y s r s' ↔ ∃ q s₁, Ends x s₀ q s₁ ∧ f (q, s₁) = (r, s') := by
  simp only [Ends, h, Option.map_eq_some_iff, Prod.exists]
  constructor
  · rintro ⟨depth, q, s₁, hq, heq⟩
    exact ⟨q, s₁, ⟨depth, hq⟩, heq⟩
  · rintro ⟨q, s₁, ⟨depth, hq⟩, heq⟩
    exact ⟨depth, q, s₁, hq, heq⟩

theorem bind_iff (hx : Monotone x) (hf : ∀ a, Monotone (f · a)) {r : Except InferError β} :
    Ends (fun depth => x depth >>= f depth) s r s' ↔
      (∃ a s₁, Ends x s (.ok a) s₁ ∧ Ends (f · a) s₁ r s') ∨
        ∃ e, Ends x s (.error e) s' ∧ r = .error e := by
  constructor
  · rintro ⟨depth, h⟩
    rcases bind_eq_some.mp h with ⟨a, s₁, ha, hfa⟩ | ⟨e, he, rfl⟩
    · exact .inl ⟨a, s₁, ⟨depth, ha⟩, ⟨depth, hfa⟩⟩
    · exact .inr ⟨e, ⟨depth, he⟩, rfl⟩
  · rintro (⟨a, s₁, ⟨d, hd⟩, ⟨d', hd'⟩⟩ | ⟨e, ⟨d, hd⟩, rfl⟩)
    · refine ⟨max d d', bind_eq_some.mpr (.inl ⟨a, s₁, ?_, ?_⟩)⟩
      · exact hx (Nat.le_max_left d d') _ _ hd
      · exact hf a (Nat.le_max_right d d') _ _ hd'
    · exact ⟨d, bind_eq_some.mpr (.inr ⟨e, hd, rfl⟩)⟩

theorem pure_iff {a : α} {r : Except InferError α} :
    Ends (fun _ => pure a) s r s' ↔ r = .ok a ∧ s' = s := by
  simp only [Ends, pure_apply, exists_const, Option.some.injEq, Prod.mk.injEq, eq_comm]

theorem bind_pure_iff (hx : Monotone x) {g : α → β} {r : Except InferError β} :
    Ends (fun depth => x depth >>= fun a => pure (g a)) s r s' ↔
      (∃ a, Ends x s (.ok a) s' ∧ r = .ok (g a)) ∨
        ∃ e, Ends x s (.error e) s' ∧ r = .error e := by
  refine (bind_iff hx fun a => ?_).trans (or_congr_left ⟨?_, ?_⟩)
  · exact monotone_const
  · rintro ⟨a, s₁, ha, hrest⟩
    obtain ⟨rfl, rfl⟩ := pure_iff.mp hrest
    exact ⟨a, ha, rfl⟩
  · rintro ⟨a, ha, rfl⟩
    exact ⟨a, s', ha, pure_iff.mpr ⟨rfl, rfl⟩⟩

theorem attempt_iff {r : Except InferError (Except InferError α)} :
    Ends (fun depth => attempt (x depth)) s r s' ↔ ∃ q, Ends x s q s' ∧ r = .ok q := by
  constructor
  · rintro ⟨depth, h⟩
    obtain ⟨q, hq, rfl⟩ := attempt_eq_some.mp h
    exact ⟨q, ⟨depth, hq⟩, rfl⟩
  · rintro ⟨q, ⟨depth, hq⟩, rfl⟩
    exact ⟨depth, attempt_eq_some.mpr ⟨q, hq, rfl⟩⟩

theorem attempt_bind_iff {f : Nat → Except InferError α → InferM β} (hx : Monotone x)
    (hf : ∀ q, Monotone (f · q)) {r : Except InferError β} :
    Ends (fun depth => attempt (x depth) >>= f depth) s r s' ↔
      ∃ q s₁, Ends x s q s₁ ∧ Ends (f · q) s₁ r s' := by
  rw [bind_iff (fun _ _ h => attempt_le_attempt (hx h)) hf]
  simp only [attempt_iff]
  constructor
  · rintro (⟨q, s₁, ⟨_, hq, heq⟩, hrest⟩ | ⟨e, ⟨_, _, heq⟩, _⟩)
    · cases heq
      exact ⟨q, s₁, hq, hrest⟩
    · cases heq
  · rintro ⟨q, s₁, hq, hrest⟩
    exact .inl ⟨q, s₁, ⟨q, hq, rfl⟩, hrest⟩

end Ends

end ResourceLint
