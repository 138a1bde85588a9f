import ResourceLint.Proofs.Growth

/-!
# Sessions that keep what is good

Suppose that each entry is good when it is put into a session. Then everything a session remembers
is good, apart from the types that are being worked out at the moment. This takes that an entry is
only ever found by what it was put there for: names of declarations do not look drawn, and no name
is drawn twice.
-/

namespace ResourceLint

open Inference

/-- A name drawn for a place is of no use until there is an entry under it. -/
theorem Scope.recalled?_addInPlace {sc : Scope} {name : String} {span : Span} {kind : InPlaceKind}
    (hlacks : sc.entry kind name = none) {slot : Slot} {t : Ty}
    (h : (sc.addInPlace span kind name).recalled? slot = some t) : sc.recalled? slot = some t := by
  cases slot with
  | named => exact h
  | inPlace kind' span' =>
      obtain ⟨name', hname', ht⟩ := Option.bind_eq_some_iff.mp h
      simp only [Scope.nameAt, Scope.inPlaceName?, Scope.addInPlace, List.lookup_cons] at hname'
      split at hname'
      · next heq =>
          obtain ⟨rfl, rfl⟩ := Prod.mk.inj (eq_of_beq heq)
          cases hname'
          rw [show sc.entry kind' name = some t from ht] at hlacks
          cases hlacks
      · exact Option.bind_eq_some_iff.mpr ⟨name', hname', ht⟩

/-- Everything that a session remembers is good, unless it is being worked out. Only what is `known`
is asked about. -/
structure Session.Kept (p : Program) (known : String → Memo → Prop) (pending : String → Slot → Prop)
    (good : String → Slot → Ty → Prop) (s : Session) : Prop where
  sound : s.Sound p
  numbered : s.Numbered
  remembers : ∀ {home sc memo t}, s.scopes.find? home = some sc → known home memo →
    memo.isNamed = true → sc.recalled? memo.slot = some t →
    pending home memo.slot ∨ good home memo.slot t

/-- A type is pending too while it is worked out. -/
def alsoPendingAt (pending : String → Slot → Prop) (home : String) (slot : Slot) :
    String → Slot → Prop :=
  fun id sl => pending id sl ∨ slot.kind = .struct ∧ id = home ∧ sl = slot

namespace Session.Kept

variable {p : Program} {known : String → Memo → Prop} {pending pending' : String → Slot → Prop}
  {good : String → Slot → Ty → Prop} {s s' s₀ : Session} {home name : String} {memo : Memo}

theorem new : Session.new.Kept p known pending good where
  sound := sound_new
  numbered := .new
  remembers h := by cases h

theorem enter (h : s.Kept p known pending good) (id : String) :
    (s.enter p id).2.Kept p known pending good := by
  refine ⟨h.sound.enter id, h.numbered.enter p id, ?_⟩
  rcases enter_cases p s id with heq | ⟨_, m, _, ⟨sc, hsc, heq⟩ | ⟨e, _, heq⟩⟩
  · rw [heq]
    exact h.remembers
  · rw [heq]
    intro id' sc' memo t hsc' hmemo hnamed ht
    dsimp only at hsc'
    rw [Table.find?_insert] at hsc'
    split at hsc'
    · cases hsc'
      obtain ⟨name, _, hentry⟩ := Option.bind_eq_some_iff.mp ht
      rw [sc.entry_ofModule hsc] at hentry
      cases hentry
    · exact h.remembers hsc' hmemo hnamed ht
  · rw [heq]
    exact h.remembers

theorem of_enter (h : s.Kept p known pending good) {r : Except InferError Scope}
    (henter : s.enter p home = (r, s')) : s'.Kept p known pending good := by
  have hs' := h.enter home
  rwa [henter] at hs'

theorem opening (h : s.Kept p known pending good) {slot : Slot}
    (hopen : Opening home s slot name s₀) : s₀.Kept p known pending good := by
  refine ⟨hopen.sound h.sound, hopen.numbered h.numbered, ?_⟩
  cases hopen with
  | known => exact h.remembers
  | @drawn sc kind span hsc hnone =>
      intro id sc' memo t hsc' hmemo hnamed ht
      rw [find?_nameInPlace] at hsc'
      split at hsc'
      · next hid =>
          subst hid
          rw [hsc, Option.map_some, Option.some.injEq] at hsc'
          subst hsc'
          have hlacks := (h.numbered id sc hsc).lacks_next kind
          exact h.remembers hsc hmemo hnamed (Scope.recalled?_addInPlace hlacks ht)
      · exact h.remembers hsc' hmemo hnamed ht

section Opened

variable (hplain : ∀ home memo, known home memo → memo.isPlain = true) (hmemo : known home memo)
  (hnamed : memo.isNamed = true)

include hmemo hnamed in
theorem remembers_entry (h : s.Kept p known pending good) {sc : Scope}
    (hsc : s.scopes.find? home = some sc) (hname : sc.nameAt memo.slot = some name) {t : Ty}
    (ht : sc.entry memo.slot.kind name = some t) :
    pending home memo.slot ∨ good home memo.slot t := by
  refine h.remembers hsc hmemo hnamed ?_
  rw [sc.recalled?_of_nameAt memo.slot hname]
  exact ht

include hplain hmemo hnamed

/-- One entry may be changed if it is good afterwards. -/
theorem sameBut (h : s.Kept p known pending good) {sc : Scope}
    (hsc : s.scopes.find? home = some sc) (hname : sc.nameAt memo.slot = some name)
    (hsame : s.SameBut home memo.slot.kind name s')
    (hpending : ∀ id slot, pending id slot → pending' id slot ∨ id = home ∧ slot = memo.slot)
    (hentry : ∀ sc' t, s'.scopes.find? home = some sc' → sc'.entry memo.slot.kind name = some t →
      pending' home memo.slot ∨ good home memo.slot t) :
    s'.Kept p known pending' good := by
  have hslot := Memo.slot_isPlain hnamed (hplain home memo hmemo)
  have hnumbered := h.numbered home sc hsc
  refine ⟨hsame.sound h.sound, h.numbered.sameBut hsame (hnumbered.nameAt hslot hname), ?_⟩
  intro id sc' memo' t hsc' hmemo' hnamed' ht
  obtain ⟨name', hname', ht'⟩ := Option.bind_eq_some_iff.mp ht
  rcases hsame.scope_before hsc' with ⟨hid, hold⟩ | ⟨rfl, sc₀, hsc₀, hsame'⟩
  · refine (h.remembers hold hmemo' hnamed' ht).imp_left fun hpend => ?_
    exact (hpending id _ hpend).resolve_right fun heq => hid heq.1
  · rw [hsc] at hsc₀
    cases hsc₀
    rw [hsame'.nameAt] at hname'
    by_cases hself : memo'.slot.kind = memo.slot.kind ∧ name' = name
    · -- The entry that was changed is found by no other slot.
      obtain ⟨hkind, rfl⟩ := hself
      have heq : memo'.slot = memo.slot := hnumbered.slot_eq
        (Memo.slot_isPlain hnamed' (hplain _ memo' hmemo')) hslot hkind hname' hname
      rw [heq] at ht' ⊢
      exact hentry sc' t hsc' ht'
    · have hentry' : sc.entry memo'.slot.kind name' = some t := by
        rw [← hsame'.entry hself]
        exact ht'
      refine (h.remembers_entry hmemo' hnamed' hsc hname' hentry').imp_left fun hpend => ?_
      refine (hpending id _ hpend).resolve_right fun heq => hself ?_
      rw [heq.2, hname, Option.some.injEq] at hname'
      exact ⟨congrArg Slot.kind heq.2, hname'.symm⟩

theorem opened (h : s.Kept p known pending good) (hopen : Opening home s memo.slot name s₀) :
    (s₀.opened home memo.slot.kind name).Kept p known (alsoPendingAt pending home memo.slot)
      good := by
  have h₀ := h.opening hopen
  obtain ⟨sc, hsc, hname⟩ := hopen.nameAt
  refine h₀.sameBut hplain hmemo hnamed hsc hname (.opened ..) (fun _ _ hpend => .inl (.inl hpend))
    fun sc' t hsc' ht => ?_
  cases hkind : memo.slot.kind with
  | struct => exact .inl (.inr ⟨hkind, rfl, rfl⟩)
  | func =>
      rw [hkind] at hsc'
      rw [show s₀.scopes.find? home = some sc' from hsc'] at hsc
      cases hsc
      exact (h₀.remembers_entry hmemo hnamed hsc' hname ht).imp_left .inl

theorem closed (h : s'.Kept p known (alsoPendingAt pending home memo.slot) good)
    (hopen : Opening home s memo.slot name s₀)
    (hkeeps : (s₀.opened home memo.slot.kind name).Keeps s') {r : Except InferError Ty}
    (hr : ∀ t, r = .ok t → t.Defines name home memo.slot.kind ∧ good home memo.slot t) :
    (s'.closed home memo.slot.kind name r).Kept p known pending good := by
  obtain ⟨sc, hsc, hname⟩ : ∃ sc, s'.scopes.find? home = some sc ∧
      sc.nameAt memo.slot = some name := by
    obtain ⟨sc₀, hsc₀, hname₀⟩ := hopen.nameAt
    obtain ⟨sc, hsc, hkeeps'⟩ := ((Keeps.sameBut (.opened ..)).trans hkeeps) home sc₀ hsc₀
    exact ⟨sc, hsc, hkeeps'.nameAt hname₀⟩
  refine h.sameBut hplain hmemo hnamed hsc hname (.closed ..) (fun _ _ hpend =>
    hpend.imp_right And.right) fun sc' u hsc' hu => ?_
  cases r with
  | ok t =>
      rw [entry_closed_ok (hr t rfl).1 hsc', Option.some.injEq] at hu
      exact .inr (hu ▸ (hr t rfl).2)
  | error e =>
      cases hkind : memo.slot.kind with
      | struct =>
          rw [hkind] at hsc' hu
          rw [entry_closed_error hsc'] at hu
          cases hu
      | func =>
          rw [hkind] at hsc'
          rw [show s'.scopes.find? home = some sc' from hsc'] at hsc
          cases hsc
          rcases h.remembers_entry hmemo hnamed hsc' hname hu with (hpend | ⟨hstruct, _⟩) | hgood
          · exact .inl hpend
          · rw [hkind] at hstruct
            cases hstruct
          · exact .inr hgood

end Opened

end Session.Kept

end ResourceLint
