import ResourceLint.Proofs.Depth
import ResourceLint.Proofs.Growth
import ResourceLint.Proofs.Matching
import ResourceLint.Proofs.Renaming
import ResourceLint.Proofs.Views

/-!
# Matching a name

A type that does not fit as it is gets a second chance by the declaration of its name. For a
declared type this makes no difference, and for a mere reference to it the second chance decides, so
both fit what the declared type fits (`fits_by_name`). The declared type is the one that is
remembered: it stays what it is as long as its name is not drawn for a type written in place, which
then takes its place (`drawn_name_takes_over`).
-/

namespace ResourceLint

open Inference InferM

variable {p : Program} {known : String → Memo → Prop} {s s' s₁ s₂ : Session} {home name : String}
  {kind : InPlaceKind} {symbols : Symbols} {d : TypeDecl} {t u : Ty}

/-- A type or a signature is remembered under a name. -/
def Session.Recalls (s : Session) (home : String) (kind : InPlaceKind) (name : String) (t : Ty) :
    Prop :=
  ∃ sc, s.scopes.find? home = some sc ∧ sc.entry kind name = some t

namespace Session.Recalls

theorem mono (h : s.Recalls home kind name t) (hext : s.Extends s') :
    s'.Recalls home kind name t := by
  obtain ⟨sc, hsc, ht⟩ := h
  obtain ⟨sc', hsc', hsc⟩ := hext.scopes hsc
  exact ⟨sc', hsc', hsc.entry ht⟩

theorem sameBut (h : s.Recalls home kind name t) {home' name' : String} {kind' : InPlaceKind}
    (hsame : s.SameBut home' kind' name' s')
    (hother : ¬ (home = home' ∧ kind = kind' ∧ name = name')) : s'.Recalls home kind name t := by
  obtain ⟨sc, hsc, ht⟩ := h
  rcases hsame.scope_after hsc with ⟨_, hsc'⟩ | ⟨rfl, sc', hsc', hscope⟩
  · exact ⟨sc, hsc', ht⟩
  · refine ⟨sc', hsc', ?_⟩
    rwa [hscope.entry fun heq => hother ⟨rfl, heq⟩]

end Session.Recalls

/-- What is worked out next is not remembered yet, unless it takes a name that looks drawn. -/
theorem Opening.ne_of_recalls {home' name' : String} {slot : Slot} {s₀ : Session}
    (hopen : Opening home' s slot name' s₀) (hplain : kind.looksDrawn name = false)
    (ht : s.Recalls home kind name t) : ¬ (home = home' ∧ kind = slot.kind ∧ name = name') := by
  rintro ⟨rfl, rfl, rfl⟩
  obtain ⟨sc, hsc, ht⟩ := ht
  cases hopen with
  | known hsc' _ hlacks =>
      cases hsc.symm.trans hsc'
      cases hlacks.symm.trans ht
  | drawn => exact absurd hplain (by simp [Session.draw, Slot.kind, InPlaceKind.looksDrawn_padded])

/-- An entry stays whatever happens, if its name does not look drawn. -/
theorem Change.recalls (h : Change p known s s') (hplain : kind.looksDrawn name = false)
    (ht : s.Recalls home kind name t) : s'.Recalls home kind name t := by
  induction h with
  | refl => exact ht
  | trans _ _ ih ih' => exact ih' (ih ht)
  | enter s id => exact ht.mono (.enter s p id)
  | settle _ _ hopen _ _ ih =>
      have hother := hopen.ne_of_recalls hplain ht
      exact (ih ((ht.mono (.opening hopen)).sameBut (.opened ..) hother)).sameBut (.closed ..)
        hother

/-- The type of a declaration is remembered for good, if its name does not look drawn. -/
theorem Run.recalls_declared (hrun : Run p (fun _ _ => True) .new s)
    (hplain : InPlaceKind.struct.looksDrawn d.name = false)
    (h : Ends (p.declaredType · d home) s (.ok t) s₁) (hlater : Run p (fun _ _ => True) s₁ s₂) :
    s₂.Sound p ∧ t.Defines d.name home .struct ∧ s₂.Recalls home .struct d.name t := by
  obtain ⟨hs₁, hdefines, sc, hentered, ht⟩ := hrun.declaredType_ok h
  have hchange := hlater.change (fun _ _ _ _ _ => trivial) hs₁
  exact ⟨hchange.sound hs₁, hdefines, hchange.recalls hplain ⟨sc, hentered.scope, ht⟩⟩

/-- The declaration of a name gives the type that is remembered under the name. -/
theorem Program.localType_of_recalls (hs : s.Sound p) (hsymbols : p.symbols home = .ok symbols)
    (hdeclared : symbols.types.contains name = true) (ht : s.Recalls home .struct name t)
    (depth : Nat) : p.localType (depth + 1) name home s = some (.ok t, s) := by
  obtain ⟨sc, hsc, ht⟩ := ht
  have hentered := hs.entered hsc
  obtain ⟨m, _, hm⟩ := Program.symbols_eq_ok hsymbols
  cases hsymbols.symm.trans (hs.scope hsc).1
  obtain ⟨d, hd⟩ := Option.isSome_iff_exists.mp hdeclared
  obtain ⟨_, rfl⟩ := Symbols.type_of_find? hm hd
  have hhit : (Memo.type d).infer p (infer p depth) home s = some (.ok t, s) :=
    Memo.infer_hit rfl hentered ht
  rw [Program.localType, Inference.localType, scope_bind_ok hentered.enter_eq, hd]
  exact hhit

/-- What is fitted by the type of a name, once the name has been looked up. -/
def Ty.fitsFound (expected : Expectation) (overrides : Overrides) :
    Except InferError Ty → Except InferError Bool
  | .ok t => t.fits expected overrides
  | .error _ => .ok false

/-- The type that the name stands for decides if the type does not fit as it is. -/
theorem Program.fits_apply {owner : String} (depth : Nat) (howner : t.owner? = some owner)
    (expected : Expectation) (overrides : Overrides) :
    p.fits depth t expected overrides s =
      match t.fits expected overrides with
      | .ok false => (p.localType depth t.name owner s).map fun found =>
          (Ty.fitsFound expected overrides found.1, found.2)
      | r => some (r, s) := by
  simp only [Program.fits, Inference.fits, Program.localType, howner, bind_apply, ofExcept_apply]
  rcases t.fits expected overrides with e | _ | _
  · rfl
  · simp only [Bool.false_eq_true, if_false, bind_apply, attempt]
    rcases Inference.localType p (infer p depth) t.name owner s with _ | ⟨_ | _, _⟩ <;> rfl
  · rfl

/-- Names with an owner have a dot. -/
theorem QualifiedName.dot_mem_qualify {owner : String} (h : owner.isEmpty = false) (name : String) :
    '.' ∈ (qualify owner name).toList := by
  rw [qualify, h, if_neg Bool.false_ne_true]
  split
  · next hqualified =>
      by_contra hdot
      rw [isQualified_of_notMem hdot] at hqualified
      cases hqualified
  · simp

theorem Category.dot_notMem_text (c : Category) : '.' ∉ c.text.toList := by
  cases c <;> decide

/-- A reference to a declared type fits no text without a dot by itself. -/
theorem Ty.fits_reference_of_notMem (hhome : home.isEmpty = false)
    (hcanonical : Predeclared.canonical? name = none) (expected : Expectation)
    (hdot : '.' ∉ expected.text.toList) (overrides : Overrides) :
    (Ty.reference name (some home)).fits expected overrides = .ok false := by
  rw [Ty.reference, Ty.fits, Except.ok.injEq, Bool.eq_false_iff, Ne, SimpleTy.fits_iff]
  rw [SimpleTy.matchedText, hcanonical]
  intro htext
  have htext : QualifiedName.qualify home name = expected.text := htext
  exact hdot (htext ▸ QualifiedName.dot_mem_qualify hhome name)

/-- A reference to a declared type is of no category by itself. -/
theorem Ty.fits_reference (hhome : home.isEmpty = false)
    (hcanonical : Predeclared.canonical? name = none) (c : Category) (overrides : Overrides) :
    (Ty.reference name (some home)).fits (.category c) overrides = .ok false :=
  fits_reference_of_notMem hhome hcanonical (.category c) c.dot_notMem_text overrides

theorem Ty.Defines.name_owner? (h : t.Defines name home .struct) :
    t.name = name ∧ t.owner? = some home := by
  cases t with
  | wrapper n o wrapped => exact ⟨h.1, congrArg some h.2⟩
  | struct n o fields => exact ⟨h.1, congrArg some h.2⟩
  | _ => exact h.elim

/-- A type that goes by the name of a remembered one, and that fits nothing else by itself, fits
what the remembered one fits. -/
theorem Program.ends_fits_iff (hs : s.Sound p) (hsymbols : p.symbols home = .ok symbols)
    (hdeclared : symbols.types.contains name = true) (ht : s.Recalls home .struct name t)
    (hu : u.name = name ∧ u.owner? = some home) {expected : Expectation} {overrides : Overrides}
    (hfits : u.fits expected overrides = .ok false ∨
      u.fits expected overrides = t.fits expected overrides)
    (r : Except InferError Bool) (s' : Session) :
    Ends (p.fits · u expected overrides) s r s' ↔ r = t.fits expected overrides ∧ s' = s := by
  obtain ⟨rfl, howner⟩ := hu
  have hlocal := p.localType_of_recalls hs hsymbols hdeclared ht 0
  have hends : Ends (p.fits · u expected overrides) s (t.fits expected overrides) s := by
    refine ⟨1, (Program.fits_apply 1 howner expected overrides).trans ?_⟩
    rw [hlocal]
    rcases hfits with hfits | hfits
    · rw [hfits]
      rfl
    · rw [hfits, Option.map_some, Ty.fitsFound]
      rcases t.fits expected overrides with e | _ | _ <;> rfl
  exact hends.iff_of_ends (p.fits_monotone u expected overrides) r s'

/-- Once the type of a declaration has been told, a reference to it and the type itself fit a
category just if the type does as it is, with the same error if it is a struct, and finding out
changes nothing. The name must not be one that may be drawn, and not one of a basic type. -/
theorem fits_by_name (hrun : Run p (fun _ _ => True) .new s)
    (hsymbols : p.symbols home = .ok symbols) (hdeclared : symbols.types.contains d.name = true)
    (hhome : home.isEmpty = false) (hcanonical : Predeclared.canonical? d.name = none)
    (hplain : InPlaceKind.struct.looksDrawn d.name = false)
    (h : Ends (p.declaredType · d home) s (.ok t) s₁) (hlater : Run p (fun _ _ => True) s₁ s₂)
    (c : Category) (overrides : Overrides) (r : Except InferError Bool) (s₃ : Session) :
    (Ends (p.fits · (.reference d.name (some home)) (.category c) overrides) s₂ r s₃ ↔
      r = t.fits (.category c) overrides ∧ s₃ = s₂) ∧
    (Ends (p.fits · t (.category c) overrides) s₂ r s₃ ↔
      r = t.fits (.category c) overrides ∧ s₃ = s₂) := by
  obtain ⟨hs₂, hdefines, hrecalls⟩ := hrun.recalls_declared hplain h hlater
  constructor
  · exact p.ends_fits_iff hs₂ hsymbols hdeclared hrecalls ⟨rfl, rfl⟩
      (.inl (Ty.fits_reference hhome hcanonical c overrides)) r s₃
  · exact p.ends_fits_iff hs₂ hsymbols hdeclared hrecalls hdefines.name_owner? (.inr rfl) r s₃

/-- `type name string` -/
def textDecl (name : String) : TypeDecl :=
  ⟨name, ⟨.zero, .ident "string" none⟩, .zero⟩

def statuses : Program :=
  (Program.empty []).add ⟨"m", "m", [], [], [textDecl "Status"], [], ∅⟩

/-- `struct{ Size int }` -/
def sizeStruct : Expr :=
  ⟨⟨0, 7, 0, 0⟩, .structType [⟨["Size"], ⟨.zero, .ident "int" none⟩, .zero⟩]⟩

theorem statuses_fit : ∃ t s₁ s₂,
    Ends (statuses.declaredType · (textDecl "Status") "m") .new (.ok t) s₁ ∧
    (∃ u, Ends (statuses.typeOf · sizeStruct "m") s₁ (.ok u) s₂) ∧
    Ends (statuses.fits · (.reference "Status" (some "m")) (.category .string) ∅) s₂ (.ok true) s₂ ∧
    Ends (statuses.fits · t (.category .int) ∅) s₂ (.ok false) s₂ := by
  obtain ⟨t, s₁, h, hstring, hint, u, s₂, hu⟩ : ∃ t s₁,
      statuses.declaredType 4 (textDecl "Status") "m" .new = some (.ok t, s₁) ∧
        t.fits (.category .string) ∅ = .ok true ∧ t.fits (.category .int) ∅ = .ok false ∧
        ∃ u s₂, statuses.typeOf 4 sizeStruct "m" s₁ = some (.ok u, s₂) :=
    ⟨_, _, rfl, rfl, rfl, _, _, rfl⟩
  have hlater : Run statuses (fun _ _ => True) s₁ s₂ :=
    .single ⟨.typeOf sizeStruct "m", fun _ _ => trivial, _, 4, hu⟩
  have hfits := fits_by_name .refl rfl rfl rfl rfl (by decide) ⟨4, h⟩ hlater
  exact ⟨t, s₁, s₂, ⟨4, h⟩, ⟨u, 4, hu⟩, (hfits .string ∅ _ _).1.mpr ⟨hstring.symm, rfl⟩,
    (hfits .int ∅ _ _).2.mpr ⟨hint.symm, rfl⟩⟩

/-- Its only type has the name that is drawn first. -/
def lookalikes : Program :=
  (Program.empty []).add ⟨"m", "m", [], [], [textDecl "struct00000001"], [], ∅⟩

/-- When the name of a type is drawn for a struct written in place, a reference to the type is taken
for the struct. -/
theorem drawn_name_takes_over : ∃ t s₁ u s₂,
    Ends (lookalikes.declaredType · (textDecl "struct00000001") "m") .new (.ok t) s₁ ∧
    Ends (lookalikes.typeOf · sizeStruct "m") s₁ (.ok u) s₂ ∧
    t.fits (.category .string) ∅ = .ok true ∧
    Ends (lookalikes.fits · (.reference "struct00000001" (some "m")) (.category .string) ∅) s₂
      (.error (.structCategory "m.struct00000001" "string")) s₂ ∧
    ¬ ∀ r s₃, Ends (lookalikes.fits · (.reference "struct00000001" (some "m"))
      (.category .string) ∅) s₂ r s₃ ↔ r = t.fits (.category .string) ∅ ∧ s₃ = s₂ := by
  obtain ⟨t, s₁, h, hstring, u, s₂, hu, hfits⟩ : ∃ t s₁,
      lookalikes.declaredType 4 (textDecl "struct00000001") "m" .new = some (.ok t, s₁) ∧
        t.fits (.category .string) ∅ = .ok true ∧
        ∃ u s₂, lookalikes.typeOf 4 sizeStruct "m" s₁ = some (.ok u, s₂) ∧
          lookalikes.fits 4 (.reference "struct00000001" (some "m")) (.category .string) ∅ s₂ =
            some (.error (.structCategory "m.struct00000001" "string"), s₂) :=
    ⟨_, _, rfl, rfl, _, _, rfl, rfl⟩
  refine ⟨t, s₁, u, s₂, ⟨4, h⟩, ⟨4, hu⟩, hstring, ⟨4, hfits⟩, fun hagree => ?_⟩
  have hresult := ((hagree _ _).mp ⟨4, hfits⟩).1
  rw [hstring] at hresult
  cases hresult

end ResourceLint
