import Mathlib.Logic.Relation
import ResourceLint.Proofs.Change
import ResourceLint.Proofs.Depth
import ResourceLint.Proofs.Renaming

/-!
# Inference without memory

`inferAlone` answers the questions that `infer` answers, each of them in a session of its own. An
answer then depends on nothing that was asked before, but questions that lead back to themselves
are never answered. What is worked out in this way is the measure for what sessions remember
(`Memo.Answers`).
-/

namespace ResourceLint

open Inference InferM

namespace InferM

variable {α : Type} {x y : InferM α} {s s' : Session} {r : Except InferError α}

/-- The outcome in a new session. Nothing is left behind. -/
def isolate (x : InferM α) : InferM α := fun s =>
  (x .new).map fun outcome => (outcome.1, s)

theorem isolate_eq_some : isolate x s = some (r, s') ↔ (∃ s₁, x .new = some (r, s₁)) ∧ s' = s := by
  unfold isolate
  rw [Option.map_eq_some_iff]
  constructor
  · rintro ⟨⟨r', s₁⟩, hx, heq⟩
    cases heq
    exact ⟨⟨s₁, hx⟩, rfl⟩
  · rintro ⟨⟨s₁, hx⟩, rfl⟩
    exact ⟨(r, s₁), hx, rfl⟩

theorem isolate_le_isolate (h : x ≤ y) : isolate x ≤ isolate y := by
  rintro s ⟨r, s'⟩ hisolated
  obtain ⟨⟨s₁, hx⟩, rfl⟩ := isolate_eq_some.mp hisolated
  exact isolate_eq_some.mpr ⟨⟨s₁, h _ _ hx⟩, rfl⟩

theorem isolate_isolate (x : InferM α) : isolate (isolate x) = isolate x := by
  funext s
  simp only [isolate, Option.map_map]
  rfl

end InferM

/-- The type of a subject, with a new session for every question. -/
def inferAlone (p : Program) : Nat → Ask
  | 0, _, _ => unfinished
  | depth + 1, .expr e, home => isolate (exprType p (inferAlone p depth) e home)
  | depth + 1, .decl d, home => isolate (Inference.declaredType p (inferAlone p depth) d home)

variable {p : Program}

theorem isolate_inferAlone (depth : Nat) (x : Subject) (home : String) :
    isolate (inferAlone p depth x home) = inferAlone p depth x home := by
  cases depth with
  | zero => rfl
  | succ depth => cases x <;> exact isolate_isolate _

theorem Depth.asks_succ_alone (depth : Nat) :
    (comparison p).Asks (inferAlone p depth) (inferAlone p (depth + 1)) := by
  induction depth with
  | zero =>
      intro x home _ _ s r s' h
      cases h
  | succ depth ih =>
      intro x home _ _
      refine holds_like_iff.mpr ?_
      cases x with
      | expr e =>
          exact isolate_le_isolate (holds_like_iff.mp
            ((comparison p).exprType ih trivial (memory ih) fun _ _ => trivial))
      | decl d => exact isolate_le_isolate (holds_like_iff.mp (memo ih (.type d) rfl))

theorem inferAlone_monotone (x : Subject) (home : String) : Monotone (inferAlone p · x home) :=
  monotone_nat_of_le_succ fun depth =>
    Depth.holds_like_iff.mp (Depth.asks_succ_alone depth x home trivial fun _ _ => trivial)

theorem Depth.asks_alone_le {depth depth' : Nat} (h : depth ≤ depth') :
    (comparison p).Asks (inferAlone p depth) (inferAlone p depth') := fun x home _ _ =>
  holds_like_iff.mpr (inferAlone_monotone x home h)

/-- Modules are entered, and nothing else happens. -/
def Entering (p : Program) : Session → Session → Prop :=
  Relation.ReflTransGen fun s s' => ∃ id, s' = (s.enter p id).2

theorem Entering.preserves {s s' : Session} (h : Entering p s s') {P : Session → Prop}
    (hP : ∀ s id, P s → P (s.enter p id).2) (hs : P s) : P s' := by
  induction h with
  | refl => exact hs
  | tail _ hstep ih =>
      obtain ⟨id, rfl⟩ := hstep
      exact hP _ id ih

theorem Entering.of_enter {s s' : Session} {home : String} {r : Except InferError Scope}
    (h : s.enter p home = (r, s')) : Entering p s s' :=
  .single ⟨home, by rw [h]⟩

theorem Entering.sound {s s' : Session} (h : Entering p s s') (hs : s.Sound p) : s'.Sound p :=
  h.preserves (fun _ id hs => hs.enter id) hs

theorem Entering.keeps {s s' : Session} (h : Entering p s s') : s.Keeps s' :=
  h.preserves (fun s' id hkeeps => hkeeps.trans (.enter s' p id)) (.refl s)

namespace Alone

/-- The two inferences come to the same, whatever the sessions remember. -/
def comparison (p : Program) : Comparison p where
  like := .blanked
  lawful := Likeness.blanked_lawful
  word _ := trivial
  known _ _ := True
  declared home symbols := p.symbols home = .ok symbols
  within _ := ⟨fun _ _ _ => trivial, fun _ _ _ => trivial, fun _ _ _ => trivial⟩
  holds R x y := ∀ s t r s', s.Sound p → t.Sound p → x s = some (r, s') → Entering p s s' ∧
    ∃ r' t', y t = some (r', t') ∧ Entering p t t' ∧ ExceptRel Likeness.blanked.err R r r'
  holds_pure h := by
    rintro s t r s' - - hx
    cases hx
    exact ⟨.refl, _, t, rfl, .refl, h⟩
  holds_fail h := by
    rintro s t r s' - - hx
    cases hx
    exact ⟨.refl, _, t, rfl, .refl, h⟩
  holds_bind := by
    intro α β γ δ R S x y f g hx hf s t r s' hs ht h
    rcases bind_eq_some.mp h with ⟨a, s₁, ha, hfa⟩ | ⟨e, he, rfl⟩
    · obtain ⟨henters, q, t₁, hy, htenters, hq⟩ := hx s t _ s₁ hs ht ha
      cases q with
      | error _ => cases hq
      | ok b =>
          obtain ⟨hrest, r', t', hg, htrest, hr⟩ :=
            hf a b hq s₁ t₁ r s' (henters.sound hs) (htenters.sound ht) hfa
          exact ⟨henters.trans hrest, r', t', bind_eq_some.mpr (.inl ⟨b, t₁, hy, hg⟩),
            htenters.trans htrest, hr⟩
    · obtain ⟨henters, q, t₁, hy, htenters, hq⟩ := hx s t _ s' hs ht he
      cases q with
      | ok _ => cases hq
      | error e' =>
          exact ⟨henters, _, t₁, bind_eq_some.mpr (.inr ⟨e', hy, rfl⟩), htenters, hq⟩
  holds_scope home := by
    intro s t r s' hs ht h
    rw [scope_apply, Option.some.injEq] at h
    have hlike := hs.enter_like ht home
    rw [h] at hlike
    exact ⟨.of_enter h, (t.enter p home).1, (t.enter p home).2, rfl, .of_enter rfl,
      hlike.mono (fun _ _ he => congrArg _ he) fun _ _ hab => ⟨hab.1, trivial, hab.2⟩⟩

theorem tolerant : (comparison p).Tolerant := by
  intro α β R x y h s t r s' hs ht hx
  obtain ⟨q, hq, rfl⟩ := attempt_eq_some.mp hx
  obtain ⟨henters, q', t', hy, htenters, hr⟩ := h s t q s' hs ht hq
  exact ⟨henters, _, t', attempt_eq_some.mpr ⟨q', hy, rfl⟩, htenters, hr⟩

theorem asks (depth : Nat) :
    (comparison p).Asks (inferAlone p depth) (inferAlone p depth) := by
  intro x home _ _ s t r s' _ _ h
  rw [← isolate_inferAlone] at h
  obtain ⟨⟨s₁, hx⟩, rfl⟩ := isolate_eq_some.mp h
  refine ⟨.refl, r, t, ?_, .refl, ?_⟩
  · rw [← isolate_inferAlone]
    exact isolate_eq_some.mpr ⟨⟨s₁, hx⟩, rfl⟩
  · cases r with
    | ok u => exact (Ty.like_blanked_iff u u).mpr rfl
    | error e => exact rfl

/-- What is worked out does not depend on the session, apart from drawn names. -/
theorem build (memo : Memo) {depth : Nat} {home n m : String} (hname : blanked n = blanked m)
    {s s' t : Session} (hs : s.Sound p) (ht : t.Sound p) {r : Except InferError Ty}
    (h : memo.build p (inferAlone p depth) home n s = some (r, s')) : Entering p s s' ∧
      ∃ r' t', memo.build p (inferAlone p depth) home m t = some (r', t') ∧
        ExceptRel Likeness.blanked.err (Ty.Like .blanked) r r' := by
  have fields := (comparison p).fieldsIfAny (asks depth) tolerant fun _ _ => rfl
  obtain ⟨henters, r', t', hbuild, _, hr⟩ := (comparison p).build (asks depth) fields trivial
    tolerant hname (fun _ _ => trivial) s t r s' hs ht h
  exact ⟨henters, r', t', hbuild, hr⟩

end Alone

/-- The name by which something goes when it is worked out alone. -/
def Slot.ownName : Slot → String
  | .named _ name => name
  | .inPlace kind _ => kind.text ++ Session.padded 0

theorem looksDrawn_padded (kind : InPlaceKind) (n : Nat) :
    looksDrawn (kind.text ++ Session.padded n) = true := by
  have hkind := kind.looksDrawn_padded n
  cases kind with
  | struct => exact (Bool.or_eq_true _ _).mpr (.inl hkind)
  | func => exact (Bool.or_eq_true _ _).mpr (.inr hkind)

theorem Opening.blanked_name {home name : String} {s s₀ : Session} {slot : Slot}
    (h : Opening home s slot name s₀) (hs : s.Numbered) :
    blanked name = blanked slot.ownName := by
  obtain ⟨sc, hsc, hname⟩ := h.nameAt
  cases slot with
  | named kind own =>
      cases hname
      rfl
  | inPlace kind span =>
      obtain ⟨k, _, rfl⟩ := (h.numbered hs home sc hsc).inPlace hname
      exact blanked_eq_iff.mpr (.inr ⟨looksDrawn_padded kind k, looksDrawn_padded kind 0⟩)

namespace Memo

/-- What working something out without memory comes to. -/
def Answers (memo : Memo) (p : Program) (home : String) (depth : Nat)
    (r : Except InferError Ty) : Prop :=
  ∃ s', memo.build p (inferAlone p depth) home memo.slot.ownName .new = some (r, s')

variable {memo memo' : Memo} {home : String}

theorem Answers.mono {depth depth' : Nat} {r : Except InferError Ty}
    (h : memo.Answers p home depth r) (hle : depth ≤ depth') : memo.Answers p home depth' r := by
  obtain ⟨s', hbuild⟩ := h
  exact ⟨s', Depth.build_le (Depth.asks_alone_le hle) memo home _ _ _ hbuild⟩

theorem Answers.unique {depth depth' : Nat} {r r' : Except InferError Ty}
    (h : memo.Answers p home depth r) (h' : memo.Answers p home depth' r') : r = r' := by
  obtain ⟨s₁, hr⟩ := h.mono (Nat.le_max_left depth depth')
  obtain ⟨s₂, hr'⟩ := h'.mono (Nat.le_max_right depth depth')
  rw [hr] at hr'
  cases hr'
  rfl

/-- There is a least depth that gives the answer. -/
theorem Answers.least {depth : Nat} {r : Except InferError Ty} (h : memo.Answers p home depth r) :
    ∃ k ≤ depth, memo.Answers p home k r ∧ ∀ i < k, ∀ r', ¬ memo.Answers p home i r' := by
  classical
  have hex : ∃ k, ∃ r, memo.Answers p home k r := ⟨depth, r, h⟩
  obtain ⟨r', hr'⟩ := Nat.find_spec hex
  refine ⟨Nat.find hex, Nat.find_min' hex ⟨r, h⟩, hr'.unique h ▸ hr', fun i hi r' hi' => ?_⟩
  exact Nat.find_min hex hi ⟨r', hi'⟩

/-- What is looked into when something is worked out: not where it is written, and not the body of
a function. -/
def content : Memo → Option String × Expr
  | .type d => (none, d.type)
  | .function f => (f.receiverType?.join, ⟨.zero, .funcType f.params f.results⟩)
  | .struct _ fields => (none, ⟨.zero, .structType fields⟩)
  | .func _ params results => (none, ⟨.zero, .funcType params results⟩)

theorem build_congr (hslot : memo.slot = memo'.slot) (hcontent : memo.content = memo'.content)
    (ask : Ask) (name : String) : memo.build p ask home name = memo'.build p ask home name := by
  cases memo with
  | type d =>
      cases memo' with
      | type d' =>
          obtain ⟨name, type, span⟩ := d
          obtain ⟨name', type', span'⟩ := d'
          cases hslot
          cases hcontent
          rfl
      | _ => cases hslot
  | function f =>
      cases memo' with
      | function f' =>
          have hkey : f.key = f'.key := (Slot.named.inj hslot).2
          simp only [content, Prod.mk.injEq, Expr.mk.injEq, true_and,
            Node.funcType.injEq] at hcontent
          obtain ⟨hreceiver, hparams, hresults⟩ := hcontent
          simp only [build, hkey, hreceiver, hparams, hresults]
      | _ => cases hslot
  | struct span fields =>
      cases memo' with
      | struct span' fields' =>
          cases hcontent
          rfl
      | _ => cases hslot
  | func span params results =>
      cases memo' with
      | func span' params' results' =>
          cases hcontent
          rfl
      | _ => cases hslot

theorem Answers.congr {depth : Nat} {r : Except InferError Ty} (h : memo.Answers p home depth r)
    (hslot : memo.slot = memo'.slot) (hcontent : memo.content = memo'.content) :
    memo'.Answers p home depth r := by
  obtain ⟨s', hbuild⟩ := h
  exact ⟨s', by rwa [← build_congr hslot hcontent, ← hslot]⟩

end Memo

end ResourceLint
