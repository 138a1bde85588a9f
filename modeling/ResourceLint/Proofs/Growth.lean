import ResourceLint.Proofs.Run

/-!
# What is remembered stays

The names drawn for types written in place are numbered, so that none is drawn twice. As long as no
declaration has a name that looks drawn, an inference never meets an entry under a name that it is
about to use: a session grows, and nothing that was remembered before an inference is changed or
dropped by it, whether it fails or not.
-/

namespace ResourceLint

open Inference

namespace Session

theorem padded_injective : Function.Injective padded := by
  intro i j h
  have hdigits := congrArg String.toList h
  simp only [padded, String.toList_ofList] at hdigits
  have hvalue := congrArg (fun digits => Nat.ofDigitChars 10 digits 0) hdigits
  simpa only [Nat.ofDigitChars_append, Nat.ofDigitChars_replicate_zero, Nat.mul_zero,
    Nat.ofDigitChars_ten_toDigits] using hvalue

theorem isDigit_of_mem_padded {c : Char} {n : Nat} (h : c ∈ (padded n).toList) :
    c.isDigit = true := by
  simp only [padded, String.toList_ofList, List.mem_append, List.mem_replicate] at h
  rcases h with ⟨_, rfl⟩ | h
  · rfl
  · exact Nat.isDigit_of_mem_toDigits (by decide) (by decide) h

theorem length_padded (n : Nat) : 8 ≤ (padded n).toList.length := by
  simp only [padded, String.toList_ofList, List.length_append, List.length_replicate]
  omega

end Session

namespace InPlaceKind

/-- The word of the kind followed by eight or more digits. -/
def looksDrawn (kind : InPlaceKind) (name : String) : Bool :=
  let digits := name.toList.drop kind.text.toList.length
  kind.text.toList.isPrefixOf name.toList && (8 ≤ digits.length && digits.all Char.isDigit)

theorem looksDrawn_padded (kind : InPlaceKind) (n : Nat) :
    kind.looksDrawn (kind.text ++ Session.padded n) = true := by
  simp only [looksDrawn, String.toList_append, List.drop_left, Bool.and_eq_true,
    List.isPrefixOf_iff_prefix, List.all_eq_true, decide_eq_true_eq]
  exact ⟨List.prefix_append _ _, Session.length_padded n, fun _ => Session.isDigit_of_mem_padded⟩

/-- A name that was not drawn after the first `drawn` ones. -/
def Numbered (kind : InPlaceKind) (drawn : Nat) (name : String) : Prop :=
  kind.looksDrawn name = false ∨ ∃ k ≤ drawn, name = kind.text ++ Session.padded k

theorem Numbered.mono {kind : InPlaceKind} {n m : Nat} {name : String}
    (h : kind.Numbered n name) (hnm : n ≤ m) : kind.Numbered m name :=
  h.imp_right fun ⟨k, hk, hname⟩ => ⟨k, hk.trans hnm, hname⟩

theorem drawn_injective (kind : InPlaceKind) {i j : Nat}
    (h : kind.text ++ Session.padded i = kind.text ++ Session.padded j) : i = j := by
  have hchars := congrArg String.toList h
  simp only [String.toList_append, List.append_cancel_left_eq] at hchars
  exact Session.padded_injective (String.toList_inj.mp hchars)

theorem not_numbered_next (kind : InPlaceKind) (n : Nat) :
    ¬ kind.Numbered n (kind.text ++ Session.padded (n + 1)) := by
  rintro (h | ⟨k, hk, hname⟩)
  · rw [looksDrawn_padded] at h
    cases h
  · have hnumber := kind.drawn_injective hname
    omega

end InPlaceKind

/-- Whether a declaration has a name that does not look drawn. -/
def Memo.isPlain : Memo → Bool
  | .type d => !InPlaceKind.struct.looksDrawn d.name
  | .function f => f.receiverType?.isNone || !InPlaceKind.func.looksDrawn f.key
  | .struct .. | .func .. => true

def Slot.isPlain : Slot → Bool
  | .named kind name => !kind.looksDrawn name
  | .inPlace .. => true

theorem Memo.slot_isPlain {memo : Memo} (hnamed : memo.isNamed = true)
    (hplain : memo.isPlain = true) : memo.slot.isPlain = true := by
  cases memo with
  | type => exact hplain
  | function f => rwa [isPlain, Option.isNone_eq_false_iff.mpr hnamed, Bool.false_or] at hplain
  | struct => rfl
  | func => rfl

/-- No declaration has a name that looks drawn. -/
abbrev plain : String → Memo → Prop :=
  fun _ memo => memo.isPlain = true

/-- The names in a scope were not drawn after the first `drawn` ones, and no two types written in
place share a name. -/
structure Scope.Numbered (drawn : Nat) (sc : Scope) : Prop where
  entry : ∀ {kind name t}, sc.entry kind name = some t → kind.Numbered drawn name
  inPlace : ∀ {span kind name}, sc.inPlaceName? span kind = some name →
    ∃ k ≤ drawn, name = kind.text ++ Session.padded k
  distinct : ∀ {span span' kind name}, sc.inPlaceName? span kind = some name →
    sc.inPlaceName? span' kind = some name → span = span'

namespace Scope.Numbered

variable {n m : Nat} {sc sc' : Scope} {name : String} {kind : InPlaceKind}

theorem mono (h : sc.Numbered n) (hnm : n ≤ m) : sc.Numbered m :=
  ⟨fun ht => (h.entry ht).mono hnm,
    fun hname => (h.inPlace hname).imp fun _ ⟨hk, heq⟩ => ⟨hk.trans hnm, heq⟩, h.distinct⟩

theorem ofModule {mod : Module} (h : Scope.ofModule mod = .ok sc) : sc.Numbered n := by
  obtain ⟨_, _, _, _, hinPlace⟩ := Scope.ofModule_eq_ok h
  refine ⟨fun ht => ?_, fun hname => ?_, fun hname => ?_⟩
  · rw [sc.entry_ofModule h] at ht
    cases ht
  · rw [Scope.inPlaceName?, hinPlace] at hname
    cases hname
  · rw [Scope.inPlaceName?, hinPlace] at hname
    cases hname

theorem sameBut (h : sc.Numbered n) (hsame : sc.SameBut kind name sc')
    (hname : kind.Numbered n name) : sc'.Numbered n := by
  have hinPlace : ∀ span kind, sc'.inPlaceName? span kind = sc.inPlaceName? span kind :=
    fun span kind => hsame.nameAt (.inPlace kind span)
  refine ⟨fun {kind' name' t} ht => ?_, fun hname => h.inPlace (hinPlace _ _ ▸ hname),
    fun hname hname' => h.distinct (hinPlace _ _ ▸ hname) (hinPlace _ _ ▸ hname')⟩
  by_cases heq : kind' = kind ∧ name' = name
  · obtain ⟨rfl, rfl⟩ := heq
    exact hname
  · exact h.entry (hsame.entry heq ▸ ht)

/-- A type written in place takes the next number. -/
theorem addInPlace (h : sc.Numbered n) (span : Span) (kind : InPlaceKind) :
    (sc.addInPlace span kind (kind.text ++ Session.padded (n + 1))).Numbered (n + 1) := by
  have hlookup : ∀ {span' kind' name'},
      (sc.addInPlace span kind (kind.text ++ Session.padded (n + 1))).inPlaceName? span' kind' =
        some name' →
      (span' = span ∧ kind' = kind ∧ name' = kind.text ++ Session.padded (n + 1)) ∨
        sc.inPlaceName? span' kind' = some name' := by
    intro span' kind' name' hname'
    simp only [Scope.inPlaceName?, Scope.addInPlace, List.lookup_cons] at hname'
    split at hname'
    · next heq =>
        cases hname'
        obtain ⟨rfl, rfl⟩ := Prod.mk.inj (eq_of_beq heq)
        exact .inl ⟨rfl, rfl, rfl⟩
    · exact .inr hname'
  have hused : ∀ {span' : Span}, sc.inPlaceName? span' kind ≠
      some (kind.text ++ Session.padded (n + 1)) := by
    intro span' hname'
    obtain ⟨k, hk, heq⟩ := h.inPlace hname'
    have hnumber := kind.drawn_injective heq
    omega
  have hmono := h.mono (Nat.le_succ n)
  refine ⟨hmono.entry, fun hname => ?_, fun hname hname' => ?_⟩
  · rcases hlookup hname with ⟨_, rfl, rfl⟩ | hold
    · exact ⟨n + 1, le_rfl, rfl⟩
    · exact hmono.inPlace hold
  · rcases hlookup hname with ⟨rfl, rfl, rfl⟩ | hold
    · rcases hlookup hname' with ⟨rfl, _, _⟩ | hold'
      · rfl
      · exact absurd hold' hused
    · rcases hlookup hname' with ⟨rfl, rfl, rfl⟩ | hold'
      · exact absurd hold hused
      · exact h.distinct hold hold'

theorem lacks_next (h : sc.Numbered n) (kind : InPlaceKind) :
    sc.entry kind (kind.text ++ Session.padded (n + 1)) = none :=
  Option.eq_none_iff_forall_ne_some.mpr fun _ ht => kind.not_numbered_next n (h.entry ht)

theorem nameAt (h : sc.Numbered n) {slot : Slot} (hplain : slot.isPlain = true)
    (hname : sc.nameAt slot = some name) : slot.kind.Numbered n name := by
  cases slot with
  | named kind own =>
      cases hname
      exact .inl ((Bool.not_eq_true' _).mp hplain)
  | inPlace => exact .inr (h.inPlace hname)

/-- No two slots share a name. -/
theorem slot_eq (h : sc.Numbered n) {slot slot' : Slot} (hplain : slot.isPlain = true)
    (hplain' : slot'.isPlain = true) (hkind : slot.kind = slot'.kind)
    (hname : sc.nameAt slot = some name) (hname' : sc.nameAt slot' = some name) :
    slot = slot' := by
  have hdrawn : ∀ {kind : InPlaceKind} {span}, sc.inPlaceName? span kind = some name →
      (!kind.looksDrawn name) = false := by
    intro kind span hspan
    obtain ⟨k, _, rfl⟩ := h.inPlace hspan
    rw [InPlaceKind.looksDrawn_padded, Bool.not_true]
  cases slot with
  | named kind own =>
      cases hname
      cases slot' with
      | named kind' own' =>
          cases hname'
          exact congrArg (Slot.named · name) hkind
      | inPlace kind' span' =>
          cases hkind
          cases hplain.symm.trans (hdrawn hname')
  | inPlace kind span =>
      cases slot' with
      | named kind' own' =>
          cases hname'
          cases hkind
          cases hplain'.symm.trans (hdrawn hname)
      | inPlace kind' span' =>
          cases hkind
          exact congrArg _ (h.distinct hname hname')

end Scope.Numbered

/-- All names in a session are among those drawn so far, or do not look drawn. -/
def Session.Numbered (s : Session) : Prop :=
  ∀ id sc, s.scopes.find? id = some sc → sc.Numbered s.drawn

variable {p : Program} {s s' s'' s₀ : Session} {home name : String} {kind : InPlaceKind}

namespace Session.Numbered

theorem new : Session.new.Numbered := by
  intro id sc h
  cases h

theorem enter (h : s.Numbered) (p : Program) (id : String) : (s.enter p id).2.Numbered := by
  rcases enter_cases p s id with heq | ⟨_, m, _, ⟨sc, hsc, heq⟩ | ⟨e, _, heq⟩⟩
  · rwa [heq]
  · rw [heq]
    intro id' sc' hsc'
    dsimp only at hsc' ⊢
    rw [Table.find?_insert] at hsc'
    split at hsc'
    · cases hsc'
      exact .ofModule hsc
    · exact h id' sc' hsc'
  · rw [heq]
    exact h

theorem sameBut (h : s.Numbered) (hsame : s.SameBut home kind name s')
    (hname : kind.Numbered s.drawn name) : s'.Numbered := by
  intro id sc' hsc'
  rw [hsame.drawn]
  rcases hsame.scope_before hsc' with ⟨_, hsc⟩ | ⟨rfl, sc, hsc, hsc'⟩
  · exact h id sc' hsc
  · exact (h id sc hsc).sameBut hsc' hname

theorem nameInPlace (h : s.Numbered) (home : String) (span : Span) (kind : InPlaceKind) :
    (s.nameInPlace home span kind).Numbered := by
  intro id sc hsc
  rw [find?_nameInPlace] at hsc
  rw [drawn_nameInPlace]
  split at hsc
  · obtain ⟨sc₀, hsc₀, rfl⟩ := Option.map_eq_some_iff.mp hsc
    exact (h home sc₀ hsc₀).addInPlace span kind
  · exact (h id sc hsc).mono (Nat.le_succ _)

end Session.Numbered

namespace Opening

theorem numbered {slot : Slot} (h : Opening home s slot name s₀) (hs : s.Numbered) :
    s₀.Numbered := by
  cases h with
  | known => exact hs
  | drawn => exact hs.nameInPlace home _ _

/-- The name of an entry about to be worked out is not in use. -/
theorem lacks {slot : Slot} (h : Opening home s slot name s₀) (hs : s.Numbered) {sc : Scope}
    (hsc : s.scopes.find? home = some sc) : sc.entry slot.kind name = none := by
  cases h with
  | known hsc' _ hlacks =>
      rw [hsc] at hsc'
      cases hsc'
      exact hlacks
  | drawn => exact (hs home sc hsc).lacks_next _

theorem name_numbered {slot : Slot} (h : Opening home s slot name s₀) (hs : s.Numbered)
    (hplain : slot.isPlain = true) : slot.kind.Numbered s₀.drawn name := by
  obtain ⟨sc, hsc, hname⟩ := h.nameAt
  exact (h.numbered hs home sc hsc).nameAt hplain hname

end Opening

/-- A scope in which everything remembered before is remembered still. -/
structure Scope.Extends (sc sc' : Scope) : Prop extends sc.Keeps sc' where
  entry : ∀ {kind name t}, sc.entry kind name = some t → sc'.entry kind name = some t

namespace Scope.Extends

variable {sc sc' sc'' : Scope}

theorem refl (sc : Scope) : sc.Extends sc :=
  ⟨.refl sc, fun h => h⟩

theorem trans (h : sc.Extends sc') (h' : sc'.Extends sc'') : sc.Extends sc'' :=
  ⟨h.toKeeps.trans h'.toKeeps, fun ht => h'.entry (h.entry ht)⟩

/-- An entry may be changed where the smaller scope has none. -/
theorem sameBut (h : sc.Extends sc') (hsame : sc'.SameBut kind name sc'')
    (hlacks : sc.entry kind name = none) : sc.Extends sc'' := by
  refine ⟨h.toKeeps.trans (.sameBut hsame), fun {kind' name' t} ht => ?_⟩
  rw [hsame.entry]
  · exact h.entry ht
  · rintro ⟨rfl, rfl⟩
    rw [hlacks] at ht
    cases ht

theorem recalled? (h : sc.Extends sc') {slot : Slot} {t : Ty} (ht : sc.recalled? slot = some t) :
    sc'.recalled? slot = some t := by
  obtain ⟨name, hname, hentry⟩ := Option.bind_eq_some_iff.mp ht
  rw [sc'.recalled?_of_nameAt slot (h.nameAt hname)]
  exact h.entry hentry

end Scope.Extends

/-- A session in which everything remembered before is remembered still. -/
structure Session.Extends (s s' : Session) : Prop where
  scopes : ∀ {id sc}, s.scopes.find? id = some sc →
    ∃ sc', s'.scopes.find? id = some sc' ∧ sc.Extends sc'
  drawn : s.drawn ≤ s'.drawn

namespace Session.Extends

theorem refl (s : Session) : s.Extends s :=
  ⟨fun h => ⟨_, h, .refl _⟩, le_rfl⟩

theorem trans (h : s.Extends s') (h' : s'.Extends s'') : s.Extends s'' := by
  refine ⟨fun hsc => ?_, h.drawn.trans h'.drawn⟩
  obtain ⟨sc', hsc', hext⟩ := h.scopes hsc
  obtain ⟨sc'', hsc'', hext'⟩ := h'.scopes hsc'
  exact ⟨sc'', hsc'', hext.trans hext'⟩

theorem enter (s : Session) (p : Program) (id : String) : s.Extends (s.enter p id).2 := by
  rcases enter_cases p s id with heq | ⟨hnone, m, _, ⟨sc, _, heq⟩ | ⟨e, _, heq⟩⟩
  · rw [heq]
    exact .refl s
  · rw [heq]
    refine ⟨fun {id' sc'} hsc' => ⟨sc', ?_, .refl sc'⟩, le_rfl⟩
    have hne : id' ≠ id := by
      rintro rfl
      rw [hnone] at hsc'
      cases hsc'
    rwa [Table.find?_insert, if_neg hne]
  · rw [heq]
    exact ⟨fun h => ⟨_, h, .refl _⟩, le_rfl⟩

theorem opening {slot : Slot} (h : Opening home s slot name s₀) : s.Extends s₀ := by
  cases h with
  | known => exact .refl s
  | @drawn sc kind span hsc hnone =>
      refine ⟨fun {id sc'} hsc' => ?_, by rw [drawn_nameInPlace]; exact Nat.le_succ _⟩
      rw [find?_nameInPlace]
      split
      · next hid =>
          subst hid
          rw [hsc'] at hsc
          cases hsc
          exact ⟨_, by rw [hsc', Option.map_some],
            (Scope.Keeps.refl sc).addInPlace hnone, fun ht => ht⟩
      · exact ⟨sc', hsc', .refl sc'⟩

theorem sameBut (h : s.Extends s') (hsame : s'.SameBut home kind name s'')
    (hlacks : ∀ {sc}, s.scopes.find? home = some sc → sc.entry kind name = none) :
    s.Extends s'' := by
  refine ⟨fun {id sc} hsc => ?_, hsame.drawn ▸ h.drawn⟩
  obtain ⟨sc', hsc', hext⟩ := h.scopes hsc
  rcases hsame.scope_after hsc' with ⟨_, hsc''⟩ | ⟨rfl, sc'', hsc'', hsame'⟩
  · exact ⟨sc', hsc'', hext⟩
  · exact ⟨sc'', hsc'', hext.sameBut hsame' (hlacks hsc)⟩

end Session.Extends

/-- A change of a numbered session lets it grow and keeps it numbered. -/
theorem Change.grows (h : Change p plain s s') (hs : s.Numbered) :
    s.Extends s' ∧ s'.Numbered := by
  induction h with
  | refl s => exact ⟨.refl s, hs⟩
  | trans _ _ ih ih' =>
      obtain ⟨hext, hs₁⟩ := ih hs
      obtain ⟨hext', hs₂⟩ := ih' hs₁
      exact ⟨hext.trans hext', hs₂⟩
  | enter s id => exact ⟨.enter s p id, hs.enter p id⟩
  | @settle home name memo s s₀ s₁ r hplain hnamed hopen _ _ ih =>
      have hopened := Session.SameBut.opened s₀ home memo.slot.kind name
      have hclosed := Session.SameBut.closed s₁ home memo.slot.kind name r
      have hname := hopen.name_numbered hs (Memo.slot_isPlain hnamed hplain)
      obtain ⟨hext, hs₁⟩ := ih ((hopen.numbered hs).sameBut hopened hname)
      constructor
      · refine Session.Extends.sameBut (.trans ?_ hext) hclosed (hopen.lacks hs)
        exact (Session.Extends.opening hopen).sameBut hopened (hopen.lacks hs)
      · exact hs₁.sameBut hclosed (hname.mono (hopened.drawn ▸ hext.drawn))

end ResourceLint
