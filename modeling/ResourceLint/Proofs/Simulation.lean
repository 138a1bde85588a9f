import ResourceLint.Proofs.Alone
import ResourceLint.Proofs.Kept

/-!
# Memory does not matter

Where an inference without memory comes to an answer, an inference in a session that remembers only
answers comes to the same, apart from drawn names, and the session remembers only answers
afterwards. The names that are pending in the session do no harm: nothing that is pending can be
answered without memory as quickly as the question at hand.
-/

namespace ResourceLint

open Inference InferM

/-- What can be remembered is told apart by where it is remembered. -/
structure Unambiguous (p : Program) (known : String → Memo → Prop) : Prop where
  within : p.Within known
  clear : ∀ {home memo}, known home memo → memo.isClear = true
  single : ∀ {home memo memo'}, known home memo → known home memo' → memo.slot = memo'.slot →
    memo.content = memo'.content

theorem Unambiguous.plain {p : Program} {known : String → Memo → Prop} (hp : Unambiguous p known)
    (home : String) (memo : Memo) (h : known home memo) : memo.isPlain = true :=
  Memo.isPlain_of_isClear (hp.clear h)

theorem Unambiguous.clear_symbols {p : Program} {known : String → Memo → Prop}
    (hp : Unambiguous p known) {home : String} {symbols : Symbols}
    (h : p.symbols home = .ok symbols) : symbols.Clear :=
  Program.clear_symbols (fun id m hm memo hmemo => hp.clear (hp.within id m hm memo hmemo)) h

/-- A type that is an answer about whatever has that slot, found within less than `depth`. -/
def AnsweredBelow (p : Program) (known : String → Memo → Prop) (depth : Nat) (home : String)
    (slot : Slot) (t : Ty) : Prop :=
  ∃ memo, known home memo ∧ memo.slot = slot ∧
    ∃ k < depth, ∃ u, memo.Answers p home k (.ok u) ∧ Ty.Like .blanked t u

def Answered (p : Program) (known : String → Memo → Prop) (home : String) (slot : Slot)
    (t : Ty) : Prop :=
  ∃ depth, AnsweredBelow p known depth home slot t

/-- Nothing that is pending can be answered within less than `depth`. -/
def Unanswered (p : Program) (known : String → Memo → Prop) (pending : String → Slot → Prop)
    (depth : Nat) : Prop :=
  ∀ home memo, known home memo → pending home memo.slot → ∀ k < depth, ∀ r,
    ¬ memo.Answers p home k r

/-- Nothing is pending. -/
abbrev idle : String → Slot → Prop :=
  fun _ _ => False

variable {p : Program} {known : String → Memo → Prop} {pending : String → Slot → Prop}
  {s s' t t' : Session} {home name : String}

theorem Unanswered.mono {n m : Nat} (h : Unanswered p known pending m) (hle : n ≤ m) :
    Unanswered p known pending n :=
  fun home memo hmemo hpending k hk => h home memo hmemo hpending k (hk.trans_le hle)

namespace Simulation

/-- Every outcome that the second inference has without memory is one that the first inference has
in a session. -/
def comparison (hp : Unambiguous p known) (n : Nat) : Comparison p where
  like := .blanked
  lawful := Likeness.blanked_lawful
  word _ := trivial
  known := known
  declared home symbols := p.symbols home = .ok symbols
  within h := hp.within.symbols h
  holds R x y := ∀ pending s t r' t', Unanswered p known pending n →
    s.Kept p known pending (Answered p known) →
    t.Kept p known idle (AnsweredBelow p known n) → y t = some (r', t') →
    t'.Kept p known idle (AnsweredBelow p known n) ∧ ∃ r s', x s = some (r, s') ∧
      s'.Kept p known pending (Answered p known) ∧ s.Keeps s' ∧
      ExceptRel Likeness.blanked.err R r r'
  holds_pure h := by
    rintro pending s t r' t' - hs ht hy
    cases hy
    exact ⟨ht, _, s, rfl, hs, .refl s, h⟩
  holds_fail h := by
    rintro pending s t r' t' - hs ht hy
    cases hy
    exact ⟨ht, _, s, rfl, hs, .refl s, h⟩
  holds_bind := by
    intro α β γ δ R S x y f g hx hf pending s t r' t' hpending hs ht h
    rcases bind_eq_some.mp h with ⟨b, t₁, hb, hgb⟩ | ⟨e, he, rfl⟩
    · obtain ⟨ht₁, q, s₁, hq, hs₁, hkeeps, hr⟩ := hx pending s t _ t₁ hpending hs ht hb
      cases q with
      | error _ => cases hr
      | ok a =>
          obtain ⟨ht', r, s', hfa, hs', hkeeps', hr'⟩ :=
            hf a b hr pending s₁ t₁ r' t' hpending hs₁ ht₁ hgb
          exact ⟨ht', r, s', bind_eq_some.mpr (.inl ⟨a, s₁, hq, hfa⟩), hs', hkeeps.trans hkeeps',
            hr'⟩
    · obtain ⟨ht₁, q, s₁, hq, hs₁, hkeeps, hr⟩ := hx pending s t _ t' hpending hs ht he
      cases q with
      | ok _ => cases hr
      | error e' =>
          exact ⟨ht₁, _, s₁, bind_eq_some.mpr (.inr ⟨e', hq, rfl⟩), hs₁, hkeeps, hr⟩
  holds_scope home := by
    intro pending s t r' t' hpending hs ht h
    rw [scope_apply, Option.some.injEq] at h
    have hlike := hs.sound.enter_like ht.sound home
    rw [h] at hlike
    exact ⟨ht.of_enter h, (s.enter p home).1, (s.enter p home).2, rfl, hs.enter home,
      .enter s p home, hlike.mono (fun _ _ he => congrArg _ he) fun _ _ hab =>
        ⟨hab.1, trivial, hab.2⟩⟩

variable (hp : Unambiguous p known)

theorem tolerant (n : Nat) : (comparison hp n).Tolerant := by
  intro α β R x y h pending s t r' t' hpending hs ht hy
  obtain ⟨q', hq', rfl⟩ := attempt_eq_some.mp hy
  obtain ⟨ht', q, s', hq, hs', hkeeps, hr⟩ := h pending s t q' t' hpending hs ht hq'
  exact ⟨ht', _, s', attempt_eq_some.mpr ⟨q, hq, rfl⟩, hs', hkeeps, hr⟩

/-- An isolated inference may be compared in fewer sessions. -/
theorem holds_isolate {α β : Type} {R : α → β → Prop} {x : InferM α} {y : InferM β} {n m : Nat}
    (h : (comparison hp n).holds R x y) (hle : n ≤ m) :
    (comparison hp m).holds R x (isolate y) := by
  intro pending s t r' t' hpending hs ht hy
  obtain ⟨⟨t₁, hnew⟩, rfl⟩ := isolate_eq_some.mp hy
  obtain ⟨_, hr⟩ := h pending s .new r' t₁ (hpending.mono hle) hs .new hnew
  exact ⟨ht, hr⟩

section Remembered

include hp in
/-- What is found out without memory is an answer. -/
theorem alone (memo : Memo) {n : Nat} (hmemo : known home memo) (hnamed : memo.isNamed = true)
    (ht : t.Kept p known idle (AnsweredBelow p known (n + 1))) {r : Except InferError Ty}
    (h : memo.infer p (inferAlone p n) home t = some (r, t')) :
    t'.Kept p known idle (AnsweredBelow p known (n + 1)) ∧
      ((∃ e, p.symbols home = .error e ∧ r = .error e) ∨
        ∃ symbols k u, p.symbols home = .ok symbols ∧ k ≤ n ∧ memo.Answers p home k u ∧
          ExceptRel Likeness.blanked.err (Ty.Like .blanked) r u) := by
  cases memo.outcome hnamed h with
  | @unknown e _ henter =>
      exact ⟨ht.of_enter henter, .inl ⟨e, ht.sound.error_of_enter henter, rfl⟩⟩
  | @recalled sc t₁ v henter hv =>
      have ht₁ := ht.of_enter henter
      refine ⟨ht₁, .inr ?_⟩
      obtain ⟨memo', hmemo', hslot, k, hk, u, hanswer, hlike⟩ :=
        (ht₁.remembers (Session.entered_of_enter henter).scope hmemo hnamed hv).resolve_left id
      exact ⟨sc.symbols, k, .ok u, ht.sound.symbols_of_enter henter, Nat.lt_succ_iff.mp hk,
        hanswer.congr hslot (hp.single hmemo' hmemo hslot), hlike⟩
  | @built sc t₁ t₀ t₂ name r henter hopen hbuild =>
      have ht₁ := ht.of_enter henter
      have hopened := ht₁.opened hp.plain hmemo hnamed hopen
      obtain ⟨henters, u, s', hanswer, hr⟩ := Alone.build memo
        (hopen.blanked_name ht₁.numbered) hopened.sound Session.sound_new hbuild
      have ht₂ := henters.preserves (fun _ id h => h.enter id) hopened
      refine ⟨ht₂.closed hp.plain hmemo hnamed hopen henters.keeps ?_, .inr
        ⟨sc.symbols, n, u, ht.sound.symbols_of_enter henter, le_rfl, ⟨s', hanswer⟩, hr⟩⟩
      rintro v rfl
      refine ⟨Memo.build_defines hopen hbuild, memo, hmemo, rfl, n, Nat.lt_succ_self n, ?_⟩
      cases u with
      | error _ => cases hr
      | ok u => exact ⟨u, ⟨s', hanswer⟩, hr⟩

include hp in
/-- An entry may be pending up to the least depth that gives an answer to it. -/
theorem unanswered_least {memo : Memo} {n k : Nat} (hmemo : known home memo)
    (hpending : Unanswered p known pending n) (hk : k ≤ n)
    (hleast : ∀ i < k, ∀ r, ¬ memo.Answers p home i r) :
    Unanswered p known (alsoPendingAt pending home memo.slot) k := by
  rintro id memo' hmemo' (hpend | ⟨_, rfl, hslot⟩) i hi r hr
  · exact hpending id memo' hmemo' hpend i (hi.trans_le hk) r hr
  · exact hleast i hi r (hr.congr hslot (hp.single hmemo' hmemo hslot))

include hp in
/-- What has an answer is worked out to that answer. -/
theorem settled (memo : Memo) {n : Nat}
    (asks : ∀ k ≤ n, (comparison hp k).Asks (infer p k) (inferAlone p k))
    (hparts : ∀ part ∈ memo.parts, known home part) (hnamed : memo.isNamed = true)
    (hpending : Unanswered p known pending (n + 1))
    (hs : s.Kept p known pending (Answered p known)) {s₀ : Session}
    (hopen : Opening home s memo.slot name s₀) {k : Nat} (hk : k ≤ n) {u : Except InferError Ty}
    (hu : memo.Answers p home k u) :
    ∃ r s', memo.settled p (infer p n) home name s₀ = some (r, s') ∧
      s'.Kept p known pending (Answered p known) ∧ s.Keeps s' ∧
      ExceptRel Likeness.blanked.err (Ty.Like .blanked) r u := by
  have hmemo := hparts memo memo.mem_parts
  have hopened := hs.opened hp.plain hmemo hnamed hopen
  obtain ⟨k₀, hk₀, ⟨t₀, hanswer⟩, hleast⟩ := hu.least
  have hle : k₀ ≤ n := hk₀.trans hk
  obtain ⟨_, r, s₂, hbuild₀, hs₂, hkeeps₂, hr⟩ := (comparison hp k₀).build (asks k₀ hle)
    ((comparison hp k₀).fieldsIfAny (asks k₀ hle) (tolerant hp k₀) fun _ _ => rfl) trivial
    (tolerant hp k₀) (hopen.blanked_name hs.numbered) hparts _ _ .new u t₀
    (unanswered_least hp hmemo hpending (Nat.le_succ_of_le hle) hleast) hopened .new hanswer
  have hbuild := Depth.build_le (Depth.asks_le hle) memo home name _ _ hbuild₀
  refine ⟨r, s₂.closed home memo.slot.kind name r, ?_, ?_, ?_, hr⟩
  · rw [Memo.settled, hbuild, Option.map_some]
  · refine hs₂.closed hp.plain hmemo hnamed hopen hkeeps₂ ?_
    rintro v rfl
    cases u with
    | error _ => cases hr
    | ok u =>
        exact ⟨Memo.build_defines hopen hbuild, k + 1, memo, hmemo, rfl, k, Nat.lt_succ_self k, u,
          hu, hr⟩
  · exact ((Session.Keeps.opening hopen).trans (.sameBut (.opened ..))).trans
      (hkeeps₂.trans (.sameBut (.closed ..)))

include hp in
/-- In a session, what has an answer comes to that answer. -/
theorem shared (memo : Memo) {n : Nat}
    (asks : ∀ k ≤ n, (comparison hp k).Asks (infer p k) (inferAlone p k))
    (hparts : ∀ part ∈ memo.parts, known home part) (hnamed : memo.isNamed = true)
    (hpending : Unanswered p known pending (n + 1))
    (hs : s.Kept p known pending (Answered p known)) {symbols : Symbols}
    (hsymbols : p.symbols home = .ok symbols) {k : Nat} (hk : k ≤ n) {u : Except InferError Ty}
    (hu : memo.Answers p home k u) :
    ∃ r s', memo.infer p (infer p n) home s = some (r, s') ∧
      s'.Kept p known pending (Answered p known) ∧ s.Keeps s' ∧
      ExceptRel Likeness.blanked.err (Ty.Like .blanked) r u := by
  have hmemo := hparts memo memo.mem_parts
  rcases henter : s.enter p home with ⟨e | sc, s₁⟩
  · rw [hs.sound.error_of_enter henter] at hsymbols
    cases hsymbols
  have hentered := Session.entered_of_enter henter
  have hs₁ := hs.of_enter henter
  have hkeeps₁ : s.Keeps s₁ := .of_enter henter
  rw [Memo.infer_of_enter hnamed henter]
  cases hv : sc.recalled? memo.slot with
  | some v =>
      refine ⟨.ok v, s₁, Memo.infer_hit hnamed hentered hv, hs₁, hkeeps₁, ?_⟩
      rcases hs₁.remembers hentered.scope hmemo hnamed hv with hpend | ⟨_, hbelow⟩
      · exact absurd hu (hpending home memo hmemo hpend k (Nat.lt_succ_of_le hk) u)
      · obtain ⟨memo', hmemo', hslot, _, _, w, hw, hlike⟩ := hbelow
        rw [hu.unique (hw.congr hslot (hp.single hmemo' hmemo hslot))]
        exact hlike
  | none =>
      obtain ⟨name, s₀, hopen, hinfer⟩ := Memo.infer_miss hnamed hentered hv
      obtain ⟨r, s', hsettled, hs', hkeeps', hr⟩ :=
        settled hp memo asks hparts hnamed hpending hs₁ hopen hk hu
      exact ⟨r, s', (hinfer p _).trans hsettled, hs', hkeeps₁.trans hkeeps', hr⟩

theorem memo (memo : Memo) {n : Nat}
    (asks : ∀ k ≤ n, (comparison hp k).Asks (infer p k) (inferAlone p k))
    (hparts : ∀ part ∈ memo.parts, known home part) (hnamed : memo.isNamed = true) :
    (comparison hp (n + 1)).holds (Ty.Like .blanked) (memo.infer p (infer p n) home)
      (memo.infer p (inferAlone p n) home) := by
  intro pending s t r' t' hpending hs ht h
  obtain ⟨ht', hr'⟩ := alone hp memo (hparts memo memo.mem_parts) hnamed ht h
  refine ⟨ht', ?_⟩
  rcases hr' with ⟨e, he, rfl⟩ | ⟨symbols, k, u, hsymbols, hk, hu, hlike⟩
  · have hsymbols := hs.sound.enter_symbols home
    rw [he] at hsymbols
    rcases henter : s.enter p home with ⟨e' | sc, s'⟩
    · rw [henter] at hsymbols
      cases hsymbols
      exact ⟨.error e, s', Memo.infer_error hnamed henter, hs.of_enter henter, .of_enter henter,
        rfl⟩
    · rw [henter] at hsymbols
      cases hsymbols
  · obtain ⟨r, s', hr, hs', hkeeps, hlike'⟩ :=
      shared hp memo asks hparts hnamed hpending hs hsymbols hk hu
    exact ⟨r, s', hr, hs', hkeeps, Likeness.blanked_join hlike' hlike⟩

end Remembered

section Step

variable {n : Nat} (asks : ∀ k ≤ n, (comparison hp k).Asks (infer p k) (inferAlone p k))

include asks

theorem namedSignature {key : String} {symbols : Symbols} (hsymbols : p.symbols home = .ok symbols)
    (hkey : symbols.functions.contains key = true) :
    (comparison hp (n + 1)).holds (Signature.Like .blanked) (namedSignature p (infer p n) key home)
      (Inference.namedSignature p (inferAlone p n) key home) := by
  obtain ⟨f, hf⟩ := Option.isSome_iff_exists.mp hkey
  have hparts := (hp.within.symbols hsymbols).functions hf
  intro pending s t r' t' hpending hs ht h
  rw [namedSignature_eq ht.sound hsymbols hf] at h
  rw [namedSignature_eq hs.sound hsymbols hf]
  exact (comparison hp (n + 1)).declaredSignature
    (fun hnamed => memo hp (.function f) asks hparts hnamed) pending s t r' t' hpending hs ht h

theorem methodSignature {a b : String} (method : String) (ha : looksDrawn a = true)
    (hb : looksDrawn b = true) :
    (comparison hp (n + 1)).holds (Signature.Like .blanked)
      (methodSignature p (infer p n) method a home)
      (Inference.methodSignature p (inferAlone p n) method b home) := by
  unfold Inference.methodSignature
  simp only [split_of_looksDrawn ha, split_of_looksDrawn hb]
  refine (comparison hp (n + 1)).holds_bind ((comparison hp (n + 1)).holds_scope home)
    fun sc sc' ⟨hsame, _, hsymbols⟩ => ?_
  have hclear := hp.clear_symbols hsymbols
  rw [← hsame]
  simp only [hclear.methodOwners_find? ha, hclear.methodOwners_find? hb]
  by_cases hmethod : (QualifiedName.isQualified method &&
      sc.symbols.functions.contains method) = true
  · obtain ⟨hqualified, hcontains⟩ := (Bool.and_eq_true _ _).mp hmethod
    simp only [if_pos hmethod, method_of_looksDrawn ha, method_of_looksDrawn hb, if_pos hqualified]
    refine (comparison hp (n + 1)).holds_bind (namedSignature hp asks hsymbols hcontains)
      fun f g hfg => ?_
    obtain ⟨hname, howner, hown, _, hargs, hresults⟩ := Signature.like_iff.mp hfg
    have hreceiver : blanked a = blanked b := blanked_eq_iff.mpr (.inr ⟨ha, hb⟩)
    exact (comparison hp (n + 1)).holds_pure (Signature.like_iff.mpr
      ⟨hname, howner, hown, .some hreceiver, hargs, hresults⟩)
  · simp only [if_neg hmethod]
    exact (comparison hp (n + 1)).holds_fail rfl

theorem asks_succ : (comparison hp (n + 1)).Asks (infer p n) (inferAlone p n) := by
  intro x home hhome hx
  rw [← isolate_inferAlone]
  exact holds_isolate hp (asks n le_rfl x home hhome hx) (Nat.le_succ n)

theorem memory : (comparison hp (n + 1)).Memory (infer p n) (inferAlone p n) where
  memo _ hnamed hparts := memo hp _ asks hparts hnamed
  namedSignature := namedSignature hp asks
  fields := (comparison hp (n + 1)).fieldsIfAny (asks_succ hp asks) (tolerant hp (n + 1))
    fun _ _ => rfl
  unequal method home hname hne := by
    obtain ⟨ha, hb⟩ := (blanked_eq_iff.mp hname).resolve_left hne
    exact methodSignature hp asks method ha hb

end Step

theorem asks (n : Nat) : (comparison hp n).Asks (infer p n) (inferAlone p n) := by
  induction n using Nat.strong_induction_on with
  | h n ih =>
      intro x home hhome hx
      cases n with
      | zero =>
          intro pending s t r' t' _ _ _ h
          cases h
      | succ n =>
          have asks : ∀ k ≤ n, (comparison hp k).Asks (infer p k) (inferAlone p k) :=
            fun k hk => ih k (Nat.lt_succ_of_le hk)
          cases x with
          | expr e =>
              exact holds_isolate hp ((comparison hp (n + 1)).exprType (asks_succ hp asks) hhome
                (memory hp asks) hx) le_rfl
          | decl d => exact holds_isolate hp (memo hp (.type d) asks hx rfl) le_rfl

end Simulation

end ResourceLint
