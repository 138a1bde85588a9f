import ResourceLint.Proofs.Depth
import ResourceLint.Proofs.Growth

/-!
# Answers are stable

An answer given once is given again, and asking again changes nothing. The inferences that look
into a scope find their answer there; everything else comes to the same answer because the
inferences it consists of do. Failures are not stable in this way: what was swallowed on the way to
an answer need not happen again, so it matters that whatever depends on it is remembered.
-/

namespace ResourceLint

open Inference InferM

/-- A session that inferences may start from. -/
structure Session.Ready (p : Program) (s : Session) : Prop where
  sound : s.Sound p
  numbered : s.Numbered

theorem Session.Ready.new (p : Program) : Session.new.Ready p :=
  ⟨Session.sound_new, Session.Numbered.new⟩

theorem Change.ready {p : Program} {s s' : Session} (h : Change p plain s s') (hs : s.Ready p) :
    s'.Ready p :=
  ⟨h.sound hs.sound, (h.grows hs.numbered).2⟩

namespace Stability

variable {p : Program}

/-- An answer of the first inference is one that the second inference gives in every later session,
without changing it. -/
def comparison (hp : p.Within plain) : Comparison p where
  like := .exact Eq
  lawful := Likeness.exact_eq_lawful
  word _ := trivial
  known := plain
  declared home symbols := p.symbols home = .ok symbols
  within h := hp.symbols h
  holds R x y := ∀ s a s₁, s.Ready p → x s = some (.ok a, s₁) →
    (s₁.Ready p ∧ s.Extends s₁) ∧
      ∀ s₂, s₂.Sound p → s₁.Extends s₂ → ∃ b, y s₂ = some (.ok b, s₂) ∧ R a b
  holds_pure hab := by
    rintro s a s₁ hs h
    cases h
    exact ⟨⟨hs, .refl s⟩, fun s₂ _ _ => ⟨_, rfl, hab⟩⟩
  holds_fail _ := by
    rintro s a s₁ hs h
    cases h
  holds_bind := by
    intro α β γ δ R S x y f g hx hf s c s₂ hs h
    rcases bind_eq_some.mp h with ⟨a, s₁, ha, hfa⟩ | ⟨e, _, he⟩
    · obtain ⟨⟨hs₁, hext⟩, hagain⟩ := hx s a s₁ hs ha
      -- The answers of `f` depend on that of `x`, so the session after both is the one to extend.
      obtain ⟨b₁, hb₁, hR₁⟩ := hagain s₁ hs₁.sound (.refl s₁)
      obtain ⟨⟨hs₂, hext'⟩, _⟩ := hf a b₁ hR₁ s₁ c s₂ hs₁ hfa
      refine ⟨⟨hs₂, hext.trans hext'⟩, fun s₃ hs₃ hlater => ?_⟩
      obtain ⟨b, hb, hR⟩ := hagain s₃ hs₃ (hext'.trans hlater)
      obtain ⟨d, hd, hS⟩ := (hf a b hR s₁ c s₂ hs₁ hfa).2 s₃ hs₃ hlater
      exact ⟨d, bind_eq_some.mpr (.inl ⟨b, s₃, hb, hd⟩), hS⟩
    · cases he
  holds_scope home := by
    intro s sc s₁ hs h
    rw [scope_apply, Option.some.injEq] at h
    have hchange : Change p plain s s₁ := Change.of_enter h
    refine ⟨⟨hchange.ready hs, (hchange.grows hs.numbered).1⟩, fun s₂ hs₂ hlater => ?_⟩
    obtain ⟨sc₂, hsc₂, hext⟩ := hlater.scopes (Session.entered_of_enter h).scope
    exact ⟨sc₂, by rw [scope_apply, (hs₂.entered hsc₂).enter_eq], hext.symbols.symm, trivial,
      hs.sound.symbols_of_enter h⟩

variable (hp : p.Within plain)

/-- An inference is stable if it leaves its answer in a scope and finds it there again. -/
theorem of_entry {α : Type} {R R' : α → α → Prop} {x : InferM α} (home : String)
    (entry : Scope → α → Prop) (hchange : (Change.comparison hp).holds R' x x)
    (hR : ∀ a, R a a)
    (hmono : ∀ {sc sc' a}, Scope.Extends sc sc' → entry sc a → entry sc' a)
    (hleaves : ∀ {s a s₁}, s.Sound p → x s = some (.ok a, s₁) →
      ∃ sc, s₁.scopes.find? home = some sc ∧ entry sc a)
    (hfinds : ∀ {s sc a}, s.Sound p → s.scopes.find? home = some sc → entry sc a →
      x s = some (.ok a, s)) : (comparison hp).holds R x x := by
  intro s a s₁ hs h
  have hchange : Change p plain s s₁ := (hchange s _ s₁ (hs.sound.within hp) h).1
  refine ⟨⟨hchange.ready hs, (hchange.grows hs.numbered).1⟩, fun s₂ hs₂ hlater => ?_⟩
  obtain ⟨sc, hsc, hentry⟩ := hleaves hs.sound h
  obtain ⟨sc₂, hsc₂, hext⟩ := hlater.scopes hsc
  exact ⟨a, hfinds hs₂ hsc₂ (hmono hext hentry), hR a⟩

variable {s s' : Session} {home name : String} (depth : Nat)

theorem memo (memo : Memo) (hnamed : memo.isNamed = true)
    (hmemo : ∀ part ∈ memo.parts, part.isPlain = true) :
    (comparison hp).holds (Ty.Like (.exact Eq)) (memo.infer p (infer p depth) home)
      (memo.infer p (infer p depth) home) :=
  of_entry hp home (fun sc t => sc.recalled? memo.slot = some t)
    (Change.memo hp (Change.asks_infer hp depth) memo hnamed hmemo)
    (fun t => (Ty.like_exact_iff t t).mpr rfl) (fun hext ht => hext.recalled? ht)
    (fun hs h => Change.leaves hp (Change.asks_infer hp depth) memo hnamed hmemo
      (hs.within hp) h)
    fun hs hsc ht => Memo.infer_hit hnamed (hs.entered hsc) ht

theorem namedSignature {key : String} {symbols : Symbols} (hsymbols : p.symbols home = .ok symbols)
    (hkey : symbols.functions.contains key = true) :
    (comparison hp).holds (Signature.Like (.exact Eq)) (namedSignature p (infer p depth) key home)
      (Inference.namedSignature p (infer p depth) key home) := by
  obtain ⟨f, hf⟩ := Option.isSome_iff_exists.mp hkey
  have hmemos := (hp.symbols hsymbols).functions hf
  intro s sig s₁ hs h
  rw [namedSignature_eq hs.sound hsymbols hf] at h
  obtain ⟨hready, hagain⟩ := (comparison hp).declaredSignature
    (fun hnamed => memo hp depth (.function f) hnamed hmemos) s sig s₁ hs h
  refine ⟨hready, fun s₂ hs₂ hlater => ?_⟩
  rw [namedSignature_eq hs₂ hsymbols hf]
  exact hagain s₂ hs₂ hlater

include hp in
/-- Only a name that no struct has makes asking for fields fail in the way that is passed over. -/
theorem structDecl?_eq_none {e : InferError} (hs : s.Sound p) (he : e.isUnknownStruct = true)
    (h : declaredFields p (infer p depth) name home s = some (.error e, s')) :
    ∃ sc, s'.scopes.find? (QualifiedName.split name home).2 = some sc ∧
      sc.symbols.structDecl? (QualifiedName.split name home).1 = none := by
  unfold declaredFields at h
  generalize QualifiedName.split name home = parts at h ⊢
  obtain ⟨name, home⟩ := parts
  rcases scope_bind_cases h with ⟨e', henter, heq⟩ | ⟨sc, s₁, henter, hrest⟩
  · cases heq
    rw [(hs.within hp).enter_error henter] at he
    cases he
  · have hs₁ := hs.of_enter henter
    cases hd : sc.symbols.structDecl? name with
    | none =>
        simp only [hd] at hrest
        cases hrest
        exact ⟨sc, (Session.entered_of_enter henter).scope, hd⟩
    | some d =>
        simp only [hd] at hrest
        rcases bind_eq_some.mp hrest with ⟨t, s₂, _, ht⟩ | ⟨e', hask, heq⟩
        · generalize t.unwrap = u at ht
          cases u <;> cases ht
        · cases heq
          have hmemos :=
            (hp.symbols (hs.symbols_of_enter henter)).types (Option.filter_eq_some_iff.mp hd).1
          obtain ⟨_, q, hq⟩ :=
            Change.asks_infer hp depth (.decl d) home trivial hmemos s₁ _ s'
              (hs₁.within hp) hask
          cases q with
          | ok _ => cases hq
          | error e' =>
              rw [hq.1] at he
              cases he

variable {depth} (asks : (comparison hp).Asks (infer p depth) (infer p depth))

include asks

theorem fields : (comparison hp).Fields (infer p depth) (infer p depth) := by
  intro name home s fs s₁ hs h
  have hchange : Change p plain s s₁ :=
    (Change.fields hp (Change.asks_infer hp depth) name home s _ s₁
      (hs.sound.within hp) h).1
  obtain ⟨q, hq, hfs⟩ := declaredFieldsIfAny_cases h
  refine ⟨⟨hchange.ready hs, (hchange.grows hs.numbered).1⟩, fun s₂ hs₂ hlater => ?_⟩
  simp only [declaredFieldsIfAny_apply]
  cases q with
  | ok fields =>
      cases hfs
      obtain ⟨fields', hfields', hlike⟩ := ((comparison hp).declaredFields asks (fun _ _ => rfl)
        name home s fs s₁ hs hq).2 s₂ hs₂ hlater
      exact ⟨fields', by rw [hfields']; rfl, hlike⟩
  | error e =>
      by_cases he : e.isUnknownStruct = true
      · simp only [fieldsIfKnown, he, if_true] at hfs
        cases hfs
        obtain ⟨sc, hsc, hnone⟩ := structDecl?_eq_none hp depth hs.sound he hq
        obtain ⟨sc₂, hsc₂, hext⟩ := hlater.scopes hsc
        have hfields : Inference.declaredFields p (infer p depth) name home s₂ =
            some (.error (.unknownStruct (QualifiedName.split name home).1
              (QualifiedName.split name home).2), s₂) := by
          unfold Inference.declaredFields
          dsimp only
          rw [scope_bind_ok (hs₂.entered hsc₂).enter_eq, hext.symbols, hnone]
          rfl
        exact ⟨∅, by rw [hfields]; rfl, Table.rel_empty⟩
      · simp only [fieldsIfKnown, he] at hfs
        cases hfs

theorem memory : (comparison hp).Memory (infer p depth) (infer p depth) where
  memo _ := memo hp depth _
  namedSignature := namedSignature hp depth
  fields := fields hp asks
  unequal _ _ hname hne := absurd hname hne

omit asks

theorem asks_infer (depth : Nat) :
    (comparison hp).Asks (infer p depth) (infer p depth) := by
  induction depth with
  | zero =>
      intro x home _ _ s a s₁ _ h
      cases h
  | succ depth ih =>
      intro x home hhome hx
      cases x with
      | expr e => exact (comparison hp).exprType ih hhome (memory hp ih) hx
      | decl d => exact memo hp depth (.type d) rfl hx

end Stability

/-- Once the type of an expression has been told, every later inference of it tells the same type
and leaves the session as it is, whatever has been asked in between and however that ended. -/
theorem typeOf_again {p : Program} (hp : p.Within plain) {e : Expr} {home : String} {t : Ty}
    {s s₁ s₂ : Session} (hbefore : Run p plain .new s) (he : ∀ memo ∈ e.memos, memo.isPlain = true)
    (h : Ends (p.typeOf · e home) s (.ok t) s₁) (hafter : Run p plain s₁ s₂)
    (r : Except InferError Ty) (s₃ : Session) :
    Ends (p.typeOf · e home) s₂ r s₃ ↔ r = .ok t ∧ s₃ = s₂ := by
  obtain ⟨depth, h⟩ := h
  have hs : s.Ready p := (hbefore.change hp Session.sound_new).ready (.new p)
  obtain ⟨⟨hs₁, _⟩, hagain⟩ :=
    Stability.asks_infer hp depth (.expr e) home trivial he s t s₁ hs h
  have hchange : Change p plain s₁ s₂ := hafter.change hp hs₁.sound
  obtain ⟨u, hu, htu⟩ := hagain s₂ (hchange.sound hs₁.sound) (hchange.grows hs₁.numbered).1
  obtain rfl := (Ty.like_exact_iff t u).mp htu
  have hends : Ends (p.typeOf · e home) s₂ (.ok t) s₂ := ⟨depth, hu⟩
  constructor
  · exact fun h' => Ends.unique (Program.typeOf_monotone e home) h' hends
  · rintro ⟨rfl, rfl⟩
    exact hends

/-- `type Loop []Loop` and `func (l Loop) Next(x struct{ l Loop }) Loop` -/
def loops : Program :=
  (Program.empty []).add
    ⟨"m", "m", [],
      [⟨"Next", some ⟨none, ⟨.zero, .ident "Loop" none⟩⟩,
        [⟨["x"], ⟨⟨0, 3, 0, 0⟩, .structType [⟨["l"], ⟨.zero, .ident "Loop" none⟩, .zero⟩]⟩, .zero⟩],
        [⟨[], ⟨.zero, .ident "Loop" none⟩, .zero⟩], [], .zero⟩],
      [⟨"Loop", ⟨.zero, .arrayType ⟨.zero, .ident "Loop" none⟩⟩, .zero⟩], [], ∅⟩

/-- `struct{ l Loop }{}.l.Next` -/
def nextOfLoop : Expr :=
  ⟨.zero, .selector ⟨.zero, .selector ⟨.zero, .composite (some ⟨⟨0, 1, 0, 0⟩,
    .structType [⟨["l"], ⟨.zero, .ident "Loop" none⟩, .zero⟩]⟩) []⟩ "l"⟩ "Next"⟩

/-- `func() map[[]Loop]Loop`, which draws a name and then fails. -/
def badFunc : Expr :=
  ⟨⟨0, 2, 0, 0⟩, .funcType [] [⟨[], ⟨.zero, .mapType ⟨.zero, .arrayType ⟨.zero, .ident "Loop" none⟩⟩
    ⟨.zero, .ident "Loop" none⟩⟩, .zero⟩]⟩

theorem nextOfLoop_again : ∃ t s₁ s₂, Ends (loops.typeOf · nextOfLoop "m") .new (.ok t) s₁ ∧
    (∃ e, Ends (loops.typeOf · badFunc "m") s₁ (.error e) s₂) ∧ s₁.drawn < s₂.drawn ∧
    Ends (loops.typeOf · nextOfLoop "m") s₂ (.ok t) s₂ := by
  have hloops : loops.Within plain := Program.within_of_modules (by decide)
  obtain ⟨t, s₁, hfirst, e, s₂, hfails, hdrawn⟩ :
      ∃ t s₁, loops.typeOf 6 nextOfLoop "m" .new = some (.ok t, s₁) ∧
        ∃ e s₂, loops.typeOf 4 badFunc "m" s₁ = some (.error e, s₂) ∧ s₁.drawn < s₂.drawn :=
    ⟨_, _, rfl, _, _, rfl, by decide⟩
  have hbad : ∀ memo ∈ badFunc.memos, memo.isPlain = true := by decide
  have hrun : Run loops plain s₁ s₂ := .single ⟨.typeOf badFunc "m", hbad, _, 4, hfails⟩
  exact ⟨t, s₁, s₂, ⟨6, hfirst⟩, ⟨e, 4, hfails⟩, hdrawn,
    (typeOf_again hloops .refl (by decide) ⟨6, hfirst⟩ hrun (.ok t) s₂).mpr ⟨rfl, rfl⟩⟩

end ResourceLint
