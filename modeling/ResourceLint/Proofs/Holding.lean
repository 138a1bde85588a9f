import ResourceLint.Proofs.Recall

/-!
# What sessions hold

A property of everything that a session remembers, and of the names that it has drawn. Nothing that
happens to a session disturbs it, if whatever is put into the session has the property by then. This
goes for types that are being worked out as well, so their names have to have it already.
-/

namespace ResourceLint

/-- Every entry is good, and so is every name drawn for a type written in place. -/
structure Session.Holds (good : String → InPlaceKind → String → Ty → Prop)
    (fine : InPlaceKind → String → Prop) (s : Session) : Prop where
  entry : ∀ {id sc kind name t}, s.scopes.find? id = some sc → sc.entry kind name = some t →
    good id kind name t
  drawn : ∀ {id sc span kind name}, s.scopes.find? id = some sc →
    sc.inPlaceName? span kind = some name → fine kind name

namespace Session.Holds

variable {p : Program} {good : String → InPlaceKind → String → Ty → Prop}
  {fine : InPlaceKind → String → Prop} {s s' s₀ : Session} {home name : String} {kind : InPlaceKind}

theorem new : Session.new.Holds good fine where
  entry h := by cases h
  drawn h := by cases h

theorem enter (h : s.Holds good fine) (p : Program) (id : String) :
    (s.enter p id).2.Holds good fine := by
  rcases enter_cases p s id with heq | ⟨_, m, _, ⟨sc, hsc, heq⟩ | ⟨e, _, heq⟩⟩
  · rwa [heq]
  · rw [heq]
    refine ⟨fun {id' sc' kind name t} hsc' ht => ?_, fun {id' sc' span kind name} hsc' hname => ?_⟩
    · rw [Table.find?_insert] at hsc'
      split at hsc'
      · cases hsc'
        rw [sc.entry_ofModule hsc] at ht
        cases ht
      · exact h.entry hsc' ht
    · rw [Table.find?_insert] at hsc'
      split at hsc'
      · cases hsc'
        rw [Scope.inPlaceName?, (Scope.ofModule_eq_ok hsc).2.2.2.2] at hname
        cases hname
      · exact h.drawn hsc' hname
  · rw [heq]
    exact ⟨h.entry, h.drawn⟩

theorem nameInPlace (h : s.Holds good fine) (span : Span) (hfine : fine kind (s.draw kind).1) :
    (s.nameInPlace home span kind).Holds good fine := by
  have hbefore : ∀ {id sc}, (s.nameInPlace home span kind).scopes.find? id = some sc →
      ∃ sc₀, s.scopes.find? id = some sc₀ ∧
        (sc = sc₀ ∨ sc = sc₀.addInPlace span kind (s.draw kind).1) := by
    intro id sc hsc
    rw [find?_nameInPlace] at hsc
    split at hsc
    · next hid =>
        obtain ⟨sc₀, hsc₀, rfl⟩ := Option.map_eq_some_iff.mp hsc
        exact ⟨sc₀, hid ▸ hsc₀, .inr rfl⟩
    · exact ⟨sc, hsc, .inl rfl⟩
  refine ⟨fun hsc ht => ?_, fun hsc hname => ?_⟩
  · obtain ⟨sc₀, hsc₀, rfl | rfl⟩ := hbefore hsc
    · exact h.entry hsc₀ ht
    · exact h.entry hsc₀ ht
  · obtain ⟨sc₀, hsc₀, rfl | rfl⟩ := hbefore hsc
    · exact h.drawn hsc₀ hname
    · rw [Scope.inPlaceName?, Scope.addInPlace, List.lookup_cons] at hname
      split at hname
      · next heq =>
          cases hname
          obtain ⟨-, rfl⟩ := Prod.mk.inj (eq_of_beq heq)
          exact hfine
      · exact h.drawn hsc₀ hname

theorem opening (h : s.Holds good fine)
    (hfine : ∀ (kind : InPlaceKind) (n : Nat), fine kind (kind.text ++ padded n)) {slot : Slot}
    (hopen : Opening home s slot name s₀) : s₀.Holds good fine := by
  cases hopen with
  | known => exact h
  | drawn => exact h.nameInPlace _ (hfine _ _)

theorem sameBut (h : s.Holds good fine) (hsame : s.SameBut home kind name s')
    (hentry : ∀ {sc t}, s'.scopes.find? home = some sc → sc.entry kind name = some t →
      good home kind name t) : s'.Holds good fine := by
  refine ⟨fun {id sc' kind' name' t} hsc' ht => ?_, fun hsc' hname => ?_⟩
  · rcases hsame.scope_before hsc' with ⟨_, hsc⟩ | ⟨rfl, sc, hsc, hscope⟩
    · exact h.entry hsc ht
    · by_cases hself : kind' = kind ∧ name' = name
      · obtain ⟨rfl, rfl⟩ := hself
        exact hentry hsc' ht
      · exact h.entry hsc (hscope.entry hself ▸ ht)
  · rcases hsame.scope_before hsc' with ⟨_, hsc⟩ | ⟨rfl, sc, hsc, hscope⟩
    · exact h.drawn hsc hname
    · rw [Scope.inPlaceName?, hscope.inPlace] at hname
      exact h.drawn hsc hname

theorem opened (h : s.Holds good fine)
    (hgood : kind = .struct → good home .struct name (.reference name (some home))) :
    (s.opened home kind name).Holds good fine := by
  refine h.sameBut (.opened ..) fun {sc t} hsc ht => ?_
  cases kind with
  | struct =>
      rw [entry_opened hsc] at ht
      cases ht
      exact hgood rfl
  | func => exact h.entry hsc ht

theorem closed (h : s.Holds good fine) {r : Except InferError Ty}
    (hr : ∀ t, r = .ok t → t.Defines name home kind ∧ good home kind name t) :
    (s.closed home kind name r).Holds good fine := by
  refine h.sameBut (.closed ..) fun {sc u} hsc hu => ?_
  cases r with
  | ok t =>
      obtain ⟨hdefines, hgood⟩ := hr t rfl
      rw [entry_closed_ok hdefines hsc] at hu
      cases hu
      exact hgood
  | error e =>
      cases kind with
      | struct =>
          rw [entry_closed_error hsc] at hu
          cases hu
      | func => exact h.entry hsc hu

end Session.Holds

end ResourceLint
