import ResourceLint.Ty.Match

/-!
# What a type can match

Matching a type looks through the wrappers that are not overridden and from functions to their first
results. Where this ends decides the match for all expectations at once: a struct matches none, and
asking is an error; an interface matches all; anything else matches no two expectations that read
differently (`fits_exclusive`).
-/

namespace ResourceLint

variable {overrides : Overrides} {t u v : Ty}

/-- The text of the expectations that a simple type meets. -/
def SimpleTy.matchedText (s : SimpleTy) : String :=
  (Predeclared.canonical? s.name).getD s.qualifiedName

theorem SimpleTy.fits_iff (s : SimpleTy) {expected : Expectation} :
    s.fits expected = true ↔ s.matchedText = expected.text := by
  rw [fits, matchedText]
  cases Predeclared.canonical? s.name <;> simp

namespace Ty

/-- The type that stands in for this one when it is matched. -/
def inner? (overrides : Overrides) : Ty → Option Ty
  | .wrapper name owner wrapped =>
      if overrides.contains (QualifiedName.qualify owner name) then none else some wrapped
  | .func signature => signature.results.head?
  | _ => none

/-- Going on to the types that stand in for it, as long as there is one, a type leads to another. -/
inductive LeadsTo (overrides : Overrides) : Ty → Ty → Prop
  | here {t : Ty} (h : t.inner? overrides = none) : LeadsTo overrides t t
  | inner {t u v : Ty} (h : t.inner? overrides = some u) (hrest : LeadsTo overrides u v) :
      LeadsTo overrides t v

theorem sizeOf_inner? (h : t.inner? overrides = some u) : sizeOf u < sizeOf t := by
  cases t with
  | wrapper name owner wrapped =>
      simp only [inner?] at h
      split at h <;> cases h
      simp only [wrapper.sizeOf_spec]
      omega
  | func signature =>
      obtain ⟨name, owner, receiver, args, results⟩ := signature
      have hmem : sizeOf u < sizeOf results := List.sizeOf_lt_of_mem (List.mem_of_head? h)
      simp only [func.sizeOf_spec, Signature.mk.sizeOf_spec]
      omega
  | _ => cases h

theorem exists_leadsTo (overrides : Overrides) (t : Ty) : ∃ u, LeadsTo overrides t u := by
  cases h : t.inner? overrides with
  | none => exact ⟨t, .here h⟩
  | some u =>
      have := sizeOf_inner? h
      obtain ⟨v, hv⟩ := exists_leadsTo overrides u
      exact ⟨v, .inner h hv⟩
termination_by sizeOf t

theorem LeadsTo.inner?_eq_none (h : LeadsTo overrides t u) : u.inner? overrides = none := by
  induction h with
  | here hnone => exact hnone
  | inner _ _ ih => exact ih

theorem fits_of_inner? (h : t.inner? overrides = some u) (expected : Expectation) :
    t.fits expected overrides = u.fits expected overrides := by
  cases t with
  | wrapper name owner wrapped =>
      simp only [inner?] at h
      split at h
      · cases h
      · next hnone =>
          cases h
          rw [fits, Option.not_isSome_iff_eq_none.mp hnone]
  | func signature =>
      obtain ⟨name, owner, receiver, args, results⟩ := signature
      obtain ⟨rest, rfl⟩ : ∃ rest, results = u :: rest := List.head?_eq_some_iff.mp h
      rw [fits, Signature.fits, headFits]
  | _ => cases h

/-- A type matches as the one that it leads to. -/
theorem LeadsTo.fits_eq (h : LeadsTo overrides t u) (expected : Expectation) :
    t.fits expected overrides = u.fits expected overrides := by
  induction h with
  | here => rfl
  | inner hsome _ ih => rw [fits_of_inner? hsome, ih]

section ThreeWays

/-- Matching is an error, whatever is expected, and the error names one struct. -/
def Refuses (overrides : Overrides) (t : Ty) : Prop :=
  ∃ name, ∀ expected : Expectation,
    t.fits expected overrides = .error (.structCategory name expected.text)

/-- The type matches whatever is expected. -/
def FitsAll (overrides : Overrides) (t : Ty) : Prop :=
  ∀ expected, t.fits expected overrides = .ok true

/-- There is always an answer, and expectations that are met read the same. -/
structure FitsOne (overrides : Overrides) (t : Ty) : Prop where
  answers : ∀ expected, ∃ b, t.fits expected overrides = .ok b
  same_text : ∀ {expected expected'}, t.fits expected overrides = .ok true →
    t.fits expected' overrides = .ok true → expected.text = expected'.text

theorem fitsOne_of_text (text : String)
    (h : ∀ expected, ∃ b, t.fits expected overrides = .ok b ∧ (b = true → expected.text = text)) :
    t.FitsOne overrides := by
  refine ⟨fun expected => (h expected).imp fun _ hb => hb.1, fun {expected expected'} he he' => ?_⟩
  obtain ⟨b, hb, htext⟩ := h expected
  obtain ⟨b', hb', htext'⟩ := h expected'
  cases hb.symm.trans he
  cases hb'.symm.trans he'
  exact (htext rfl).trans (htext' rfl).symm

theorem LeadsTo.refuses {name owner : String} {fields : Table Ty}
    (h : LeadsTo overrides t (.struct name owner fields)) : t.Refuses overrides :=
  ⟨QualifiedName.qualify owner name, h.fits_eq⟩

theorem LeadsTo.fitsAll (h : LeadsTo overrides t .interface) : t.FitsAll overrides :=
  h.fits_eq

theorem LeadsTo.fitsOne (h : LeadsTo overrides t u) (hu : u.FitsOne overrides) :
    t.FitsOne overrides := by
  refine ⟨fun expected => ?_, fun {expected expected'} he he' => ?_⟩
  · rw [h.fits_eq expected]
    exact hu.answers expected
  · rw [h.fits_eq] at he he'
    exact hu.same_text he he'

theorem not_fitsAll_of_refuses (h : t.Refuses overrides) : ¬ t.FitsAll overrides := by
  obtain ⟨name, hname⟩ := h
  intro hall
  cases (hname (.named "")).symm.trans (hall (.named ""))

theorem not_fitsOne_of_refuses (h : t.Refuses overrides) : ¬ t.FitsOne overrides := by
  obtain ⟨name, hname⟩ := h
  intro hone
  obtain ⟨b, hb⟩ := hone.answers (.named "")
  cases (hname (.named "")).symm.trans hb

theorem not_fitsOne_of_fitsAll (h : t.FitsAll overrides) : ¬ t.FitsOne overrides := by
  intro hone
  have htext := hone.same_text (h (.category .array)) (h (.category .map))
  revert htext
  decide

/-- Where matching ends, there is a struct, an interface, or a type with at most one match. -/
theorem cases_of_inner?_eq_none (h : t.inner? overrides = none) :
    (∃ name owner fields, t = .struct name owner fields) ∨ t = .interface ∨
      t.FitsOne overrides := by
  cases t with
  | simple s =>
      refine .inr (.inr (fitsOne_of_text s.matchedText fun expected => ⟨_, rfl, fun hfits => ?_⟩))
      exact (s.fits_iff.mp hfits).symm
  | array item =>
      refine .inr (.inr (fitsOne_of_text "array" fun expected => ⟨_, rfl, fun hfits => ?_⟩))
      rw [of_decide_eq_true hfits]
      rfl
  | map key value =>
      refine .inr (.inr (fitsOne_of_text "map" fun expected => ⟨_, rfl, fun hfits => ?_⟩))
      rw [of_decide_eq_true hfits]
      rfl
  | wrapper name owner wrapped =>
      simp only [inner?] at h
      split at h
      · next hsome =>
          obtain ⟨c, hc⟩ := Option.isSome_iff_exists.mp hsome
          refine .inr (.inr (fitsOne_of_text c.text fun expected => ⟨_, by rw [fits, hc], ?_⟩))
          exact fun hfits => (of_decide_eq_true hfits).symm
      · cases h
  | func signature =>
      obtain ⟨name, owner, receiver, args, results⟩ := signature
      obtain rfl : results = [] := List.head?_eq_none_iff.mp h
      exact .inr (.inr (fitsOne_of_text "" fun _ => ⟨false, rfl, by simp⟩))
  | stub => exact .inr (.inr (fitsOne_of_text "" fun _ => ⟨false, rfl, by simp⟩))
  | struct name owner fields => exact .inl ⟨name, owner, fields, rfl⟩
  | interface => exact .inr (.inl rfl)

theorem leadsTo_cases (overrides : Overrides) (t : Ty) :
    (∃ name owner fields, LeadsTo overrides t (.struct name owner fields)) ∨
      LeadsTo overrides t .interface ∨ t.FitsOne overrides := by
  obtain ⟨u, h⟩ := exists_leadsTo overrides t
  rcases cases_of_inner?_eq_none h.inner?_eq_none with ⟨name, owner, fields, rfl⟩ | rfl | hone
  · exact .inl ⟨name, owner, fields, h⟩
  · exact .inr (.inl h)
  · exact .inr (.inr (h.fitsOne hone))

end ThreeWays

end Ty

open Ty

theorem Category.text_injective : Function.Injective Category.text := by
  intro c c' h
  have hof := congrArg ofText? h
  rwa [ofText?_text, ofText?_text, Option.some.injEq] at hof

/-- A type either refuses to be matched, naming a struct, or matches everything, or matches no two
expectations that read differently, and so at most one category. It refuses if it leads to a struct,
and matches everything if it leads to an interface. -/
theorem fits_exclusive (t : Ty) (overrides : Overrides) :
    (t.Refuses overrides ∧ ¬ t.FitsAll overrides ∧ ¬ t.FitsOne overrides ∨
      ¬ t.Refuses overrides ∧ t.FitsAll overrides ∧ ¬ t.FitsOne overrides ∨
      ¬ t.Refuses overrides ∧ ¬ t.FitsAll overrides ∧ t.FitsOne overrides) ∧
    (t.Refuses overrides ↔
      ∃ name owner fields, LeadsTo overrides t (.struct name owner fields)) ∧
    (t.FitsAll overrides ↔ LeadsTo overrides t .interface) ∧
    (t.FitsOne overrides → ∀ c c', t.fits (.category c) overrides = .ok true →
      t.fits (.category c') overrides = .ok true → c = c') := by
  refine ⟨?_, ⟨fun h => ?_, ?_⟩, ⟨fun h => ?_, LeadsTo.fitsAll⟩, fun h c c' hc hc' => ?_⟩
  · rcases t.leadsTo_cases overrides with ⟨name, owner, fields, hleads⟩ | hleads | hone
    · have h := hleads.refuses
      exact .inl ⟨h, not_fitsAll_of_refuses h, not_fitsOne_of_refuses h⟩
    · have h := hleads.fitsAll
      exact .inr (.inl ⟨fun hr => not_fitsAll_of_refuses hr h, h, not_fitsOne_of_fitsAll h⟩)
    · exact .inr (.inr ⟨fun hr => not_fitsOne_of_refuses hr hone,
        fun ha => not_fitsOne_of_fitsAll ha hone, hone⟩)
  · rcases t.leadsTo_cases overrides with hleads | hleads | hone
    · exact hleads
    · exact absurd hleads.fitsAll (not_fitsAll_of_refuses h)
    · exact absurd hone (not_fitsOne_of_refuses h)
  · rintro ⟨name, owner, fields, hleads⟩
    exact hleads.refuses
  · rcases t.leadsTo_cases overrides with ⟨name, owner, fields, hleads⟩ | hleads | hone
    · exact absurd h (not_fitsAll_of_refuses hleads.refuses)
    · exact hleads
    · exact absurd hone (not_fitsOne_of_fitsAll h)
  · exact Category.text_injective (h.same_text hc hc')

end ResourceLint
