import ResourceLint.Proofs.Comparison

/-!
# What inferences do to sessions

`Change` lists everything that a completed inference can do to a session, whatever its outcome:
scopes are entered, and entries are worked out and settled. What happens while an entry is worked
out is a change itself. What inferences leave alone, and what they keep in order, is shown by going
through these cases.
-/

namespace ResourceLint

open Inference InferM

/-- Everything that inferences can do to a session. -/
inductive Change (p : Program) (known : String → Memo → Prop) : Session → Session → Prop
  | refl (s : Session) : Change p known s s
  | trans {s s₁ s₂ : Session} (h : Change p known s s₁) (h' : Change p known s₁ s₂) :
      Change p known s s₂
  | enter (s : Session) (id : String) : Change p known s (s.enter p id).2
  | settle {home name : String} {memo : Memo} {s s₀ s₁ : Session} {r : Except InferError Ty}
      (hmemo : known home memo) (hnamed : memo.isNamed = true)
      (hopen : Opening home s memo.slot name s₀)
      (h : Change p known (s₀.opened home memo.slot.kind name) s₁)
      (hr : ∀ t, r = .ok t → memo.Makes p home name t) :
      Change p known s (s₁.closed home memo.slot.kind name r)

variable {p : Program} {known : String → Memo → Prop} {s s' s₀ : Session} {home : String}

theorem Change.sound (h : Change p known s s') (hs : s.Sound p) : s'.Sound p := by
  induction h with
  | refl => exact hs
  | trans _ _ ih ih' => exact ih' (ih hs)
  | enter s id => exact hs.enter id
  | settle _ _ hopen _ _ ih =>
      exact (Session.SameBut.closed ..).sound
        (ih ((Session.SameBut.opened ..).sound (hopen.sound hs)))

theorem Change.within (h : Change p known s s') (hp : p.Within known) (hs : s.Within known) :
    s'.Within known := by
  induction h with
  | refl => exact hs
  | trans _ _ ih ih' => exact ih' (ih hs)
  | enter s id => exact hs.enter hp id
  | settle _ _ hopen _ _ ih =>
      exact (Session.SameBut.closed ..).within
        (ih ((Session.SameBut.opened ..).within (hopen.within hs)))

/-- A later state of a scope: what it declares and the names it has drawn are the same. -/
structure Scope.Keeps (sc sc' : Scope) : Prop where
  symbols : sc'.symbols = sc.symbols
  inPlace : ∀ {span kind name}, sc.inPlaceName? span kind = some name →
    sc'.inPlaceName? span kind = some name

namespace Scope.Keeps

variable {sc sc' sc'' : Scope}

theorem refl (sc : Scope) : sc.Keeps sc :=
  ⟨rfl, fun h => h⟩

theorem trans (h : sc.Keeps sc') (h' : sc'.Keeps sc'') : sc.Keeps sc'' :=
  ⟨h'.symbols.trans h.symbols, fun hname => h'.inPlace (h.inPlace hname)⟩

theorem sameBut {kind : InPlaceKind} {name : String} (h : sc.SameBut kind name sc') :
    sc.Keeps sc' :=
  ⟨h.symbols, fun hname => by rwa [Scope.inPlaceName?, h.inPlace]⟩

theorem addInPlace {span : Span} {kind : InPlaceKind} {name : String} (h : sc.Keeps sc')
    (hnone : sc.inPlaceName? span kind = none) : sc.Keeps (sc'.addInPlace span kind name) := by
  refine ⟨h.symbols, fun {span' kind' name'} hname => ?_⟩
  have hne : (span', kind') ≠ (span, kind) := by
    intro heq
    obtain ⟨rfl, rfl⟩ := Prod.mk.inj heq
    rw [hnone] at hname
    cases hname
  simpa only [Scope.inPlaceName?, Scope.addInPlace, List.lookup_cons, beq_eq_false_iff_ne.mpr hne]
    using h.inPlace hname

theorem nameAt (h : sc.Keeps sc') {slot : Slot} {name : String}
    (hname : sc.nameAt slot = some name) : sc'.nameAt slot = some name := by
  cases slot with
  | named => exact hname
  | inPlace => exact h.inPlace hname

end Scope.Keeps

/-- A later state of a session: no scope is forgotten. -/
def Session.Keeps (s s' : Session) : Prop :=
  ∀ id sc, s.scopes.find? id = some sc → ∃ sc', s'.scopes.find? id = some sc' ∧ sc.Keeps sc'

namespace Session.Keeps

theorem refl (s : Session) : s.Keeps s :=
  fun _ sc hsc => ⟨sc, hsc, .refl sc⟩

theorem trans {s'' : Session} (h : s.Keeps s') (h' : s'.Keeps s'') : s.Keeps s'' := by
  intro id sc hsc
  obtain ⟨sc', hsc', hkeeps⟩ := h id sc hsc
  obtain ⟨sc'', hsc'', hkeeps'⟩ := h' id sc' hsc'
  exact ⟨sc'', hsc'', hkeeps.trans hkeeps'⟩

theorem sameBut {kind : InPlaceKind} {name : String} (h : s.SameBut home kind name s') :
    s.Keeps s' := by
  intro id sc hsc
  rcases h.scope_after hsc with ⟨_, hsc'⟩ | ⟨rfl, sc', hsc', hsame⟩
  · exact ⟨sc, hsc', .refl sc⟩
  · exact ⟨sc', hsc', .sameBut hsame⟩

theorem enter (s : Session) (p : Program) (id : String) : s.Keeps (s.enter p id).2 := by
  intro id' sc' hsc'
  refine ⟨sc', ?_, .refl sc'⟩
  rcases enter_cases p s id with heq | ⟨hnone, m, _, ⟨sc, _, heq⟩ | ⟨e, _, heq⟩⟩
  · rwa [heq]
  · have hne : id' ≠ id := by
      rintro rfl
      rw [hnone] at hsc'
      cases hsc'
    rwa [heq, Table.find?_insert, if_neg hne]
  · rwa [heq]

theorem of_enter {p : Program} {id : String} {r : Except InferError Scope}
    (h : s.enter p id = (r, s')) : s.Keeps s' := by
  have hkeeps := enter s p id
  rwa [h] at hkeeps

theorem opening {slot : Slot} {name : String} (h : Opening home s slot name s₀) :
    s.Keeps s₀ := by
  cases h with
  | known => exact .refl s
  | @drawn sc kind span hsc hnone =>
      intro id sc' hsc'
      rw [find?_nameInPlace]
      split
      · next hid =>
          subst hid
          rw [hsc'] at hsc
          cases hsc
          exact ⟨_, by rw [hsc', Option.map_some], (Scope.Keeps.refl sc).addInPlace hnone⟩
      · exact ⟨sc', hsc', .refl sc'⟩

end Session.Keeps

theorem Change.keeps (h : Change p known s s') : s.Keeps s' := by
  induction h with
  | refl s => exact .refl s
  | trans _ _ ih ih' => exact ih.trans ih'
  | enter s id => exact .enter s p id
  | @settle home name memo s s₀ s₁ r _ _ hopen _ _ ih =>
      have hopened : s.Keeps (s₀.opened home memo.slot.kind name) :=
        (Session.Keeps.opening hopen).trans (.sameBut (.opened ..))
      exact (hopened.trans ih).trans (.sameBut (.closed ..))

namespace Change

theorem of_enter {r : Except InferError Scope} (h : s.enter p home = (r, s')) :
    Change p known s s' := by
  have hchange : Change p known s (s.enter p home).2 := .enter s home
  rwa [h] at hchange

/-- Inferences never fail for want of a struct; only asking for the fields of a type by name
does. -/
def Expected (e e' : InferError) : Prop :=
  e.isUnknownStruct = false ∧ e'.isUnknownStruct = false

/-- Completed inferences change sessions in no other ways. The second inference takes no part. -/
def comparison (hp : p.Within known) : Comparison p where
  like := .exact Expected
  lawful := Likeness.exact_lawful (fun _ h => ⟨h, h⟩) fun h => h.1.trans h.2.symm
  word _ := trivial
  known := known
  declared home symbols := symbols.Within (known home)
  within h := h
  holds R x _ := ∀ s r s', s.Within known → x s = some (r, s') →
    Change p known s s' ∧ ∃ q, ExceptRel Expected R r q
  holds_pure hab := by
    rintro s r s' - h
    cases h
    exact ⟨.refl s, .ok _, hab⟩
  holds_fail hee := by
    rintro s r s' - h
    cases h
    exact ⟨.refl s, .error _, hee⟩
  holds_bind := by
    intro α β γ δ R S x y f g hx hf s r s' hs h
    rcases bind_eq_some.mp h with ⟨a, s₁, ha, hfa⟩ | ⟨e, he, rfl⟩
    · obtain ⟨hchange, q, hq⟩ := hx s _ s₁ hs ha
      cases q with
      | error _ => cases hq
      | ok b =>
          obtain ⟨hrest, hr⟩ := hf a b hq s₁ r s' (hchange.within hp hs) hfa
          exact ⟨hchange.trans hrest, hr⟩
    · obtain ⟨hchange, q, hq⟩ := hx s _ s' hs he
      cases q with
      | ok _ => cases hq
      | error e' => exact ⟨hchange, .error e', hq⟩
  holds_scope home := by
    intro s r s' hs h
    rw [scope_apply, Option.some.injEq] at h
    refine ⟨of_enter h, ?_⟩
    cases r with
    | error e =>
        have he := hs.enter_error h
        exact ⟨.error e, he, he⟩
    | ok sc => exact ⟨.ok sc, rfl, trivial, hs.symbols_of_enter hp h⟩

variable {ask ask' : Ask} (hp : p.Within known)

theorem tolerant : (comparison hp).Tolerant := by
  intro α β R x y h s r s' hs hx
  obtain ⟨q, hq, rfl⟩ := attempt_eq_some.mp hx
  obtain ⟨hchange, q', hq'⟩ := h s q s' hs hq
  exact ⟨hchange, .ok q', hq'⟩

variable (asks : (comparison hp).Asks ask ask')

include asks

theorem declaredFields {name home : String} {r : Except InferError (Table Ty)}
    (hs : s.Within known) (h : declaredFields p ask name home s = some (r, s')) :
    Change p known s s' := by
  unfold Inference.declaredFields at h
  generalize QualifiedName.split name home = parts at h
  obtain ⟨name, home⟩ := parts
  rcases scope_bind_cases h with ⟨e, henter, rfl⟩ | ⟨sc, s₁, henter, h⟩
  · exact of_enter henter
  · have hs₁ := hs.of_enter hp henter
    refine (of_enter henter).trans ?_
    cases hd : sc.symbols.structDecl? name with
    | none =>
        simp only [hd] at h
        cases h
        exact .refl _
    | some d =>
        simp only [hd] at h
        have hmemos : ∀ memo ∈ d.memos, known home memo :=
          (hs.symbols_of_enter hp henter).types (Option.filter_eq_some_iff.mp hd).1
        rcases bind_eq_some.mp h with ⟨t, s₂, ht, h⟩ | ⟨e, he, rfl⟩
        · have hs' : s' = s₂ := by
            generalize t.unwrap = u at h
            cases u <;> cases h <;> rfl
          rw [hs']
          exact (asks (.decl d) home trivial hmemos s₁ _ s₂ hs₁ ht).1
        · exact (asks (.decl d) home trivial hmemos s₁ _ s' hs₁ he).1

theorem fields : (comparison hp).Fields ask ask' := by
  intro name home s r s' hs h
  obtain ⟨q, hq, rfl⟩ := declaredFieldsIfAny_cases h
  refine ⟨declaredFields hp asks hs hq, ?_⟩
  cases q with
  | ok fields => exact ⟨.ok fields, Table.rel_exact_iff.mpr rfl⟩
  | error e =>
      simp only [fieldsIfKnown]
      split
      · exact ⟨.ok ∅, Table.rel_empty⟩
      · next he =>
          have he := Bool.eq_false_iff.mpr he
          exact ⟨.error e, he, he⟩

theorem build (memo : Memo) (name : String) (hmemo : ∀ part ∈ memo.parts, known home part) :
    (comparison hp).holds (Ty.Like (.exact Expected)) (memo.build p ask home name)
      (memo.build p ask' home name) :=
  (comparison hp).build asks (fields hp asks) trivial (tolerant hp) rfl hmemo

theorem memo (memo : Memo) (hnamed : memo.isNamed = true)
    (hmemo : ∀ part ∈ memo.parts, known home part) :
    (comparison hp).holds (Ty.Like (.exact Expected)) (memo.infer p ask home)
      (memo.infer p ask' home) := by
  intro s r s' hs h
  cases memo.outcome hnamed h with
  | @unknown e _ henter =>
      have he := hs.enter_error henter
      exact ⟨of_enter henter, .error e, he, he⟩
  | @recalled _ _ t henter _ => exact ⟨of_enter henter, .ok t, (Ty.like_exact_iff _ _).mpr rfl⟩
  | @built sc s₁ s₀ s₂ name _ henter hopen hbuild =>
      have hs₀ := (Session.SameBut.opened s₀ home memo.slot.kind name).within
        (hopen.within (hs.of_enter hp henter))
      obtain ⟨hchange, q, hq⟩ := build hp asks memo name hmemo _ r s₂ hs₀ hbuild
      refine ⟨(of_enter henter).trans
        (.settle (hmemo _ memo.mem_parts) hnamed hopen hchange ?_), q, hq⟩
      rintro t rfl
      exact ⟨ask, _, _, hbuild⟩

/-- What was asked for is remembered afterwards. -/
theorem leaves (memo : Memo) (hnamed : memo.isNamed = true)
    (hmemo : ∀ part ∈ memo.parts, known home part) (hs : s.Within known) {t : Ty}
    (h : memo.infer p ask home s = some (.ok t, s')) :
    ∃ sc, s'.scopes.find? home = some sc ∧ sc.recalled? memo.slot = some t := by
  cases memo.outcome hnamed h with
  | recalled henter ht => exact ⟨_, (Session.entered_of_enter henter).scope, ht⟩
  | @built _ s₁ s₀ s₂ name _ henter hopen hbuild =>
      have hopened := Session.SameBut.opened s₀ home memo.slot.kind name
      have hs₀ := hopened.within (hopen.within (hs.of_enter hp henter))
      have hchange : Change p known (s₀.opened home memo.slot.kind name) s₂ :=
        (build hp asks memo name hmemo _ _ s₂ hs₀ hbuild).1
      have hkeeps := ((Session.Keeps.sameBut hopened).trans hchange.keeps).trans
        (.sameBut (.closed s₂ home memo.slot.kind name (.ok t)))
      obtain ⟨sc₀, hsc₀, hname⟩ := hopen.nameAt
      obtain ⟨sc, hsc, hkeeps⟩ := hkeeps home sc₀ hsc₀
      refine ⟨sc, hsc, ?_⟩
      rw [sc.recalled?_of_nameAt memo.slot (hkeeps.nameAt hname)]
      exact Session.entry_closed_ok (Memo.build_defines hopen hbuild) hsc

theorem namedSignature (key : String) :
    (comparison hp).holds (Signature.Like (.exact Expected)) (namedSignature p ask key home)
      (Inference.namedSignature p ask' key home) := by
  intro s r s' hs h
  rcases scope_bind_cases h with ⟨e, henter, rfl⟩ | ⟨sc, s₁, henter, h⟩
  · have he := hs.enter_error henter
    exact ⟨of_enter henter, .error e, he, he⟩
  · have hs₁ := hs.of_enter hp henter
    cases hsig : sc.signatures.find? key with
    | some sig =>
        simp only [hsig] at h
        cases h
        exact ⟨of_enter henter, .ok sig, (Signature.like_exact_iff _ _).mpr rfl⟩
    | none =>
        cases hf : sc.symbols.functions.find? key with
        | some f =>
            simp only [hsig, hf] at h
            have hmemos := (hs.symbols_of_enter hp henter).functions hf
            obtain ⟨hchange, hq⟩ := (comparison hp).declaredSignature
              (fun hnamed => memo hp asks (.function f) hnamed hmemos) s₁ r s' hs₁ h
            exact ⟨(of_enter henter).trans hchange, hq⟩
        | none =>
            simp only [hsig, hf] at h
            cases h
            exact ⟨of_enter henter, .error (.unknownFunction key home), rfl, rfl⟩

theorem memory : (comparison hp).Memory ask ask' where
  memo _ := memo hp asks _
  namedSignature _ _ := namedSignature hp asks _
  fields := fields hp asks
  unequal _ _ hname hne := absurd hname hne

omit asks

theorem asks_infer (depth : Nat) : (comparison hp).Asks (infer p depth) (infer p depth) := by
  induction depth with
  | zero =>
      intro x home _ _ s r s' _ h
      cases h
  | succ depth ih =>
      intro x home hhome hx
      cases x with
      | expr e => exact (comparison hp).exprType ih hhome (memory hp ih) hx
      | decl d => exact memo hp ih (.type d) rfl hx

end Change

end ResourceLint
