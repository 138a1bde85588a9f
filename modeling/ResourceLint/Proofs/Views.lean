import ResourceLint.Proofs.Depth
import ResourceLint.Proofs.Promotion
import ResourceLint.Proofs.Settled

/-!
# Two views of a named type

The members of a named type can be looked up by the bare name, as a reference from another file
does, or on the type that its declaration declares. Methods are found by the name either way. Fields
are not: the name leads to them only when its declaration spells out a struct, while a declared type
has the fields of whatever struct it wraps. So the two views agree on structs, and on everything
that is not a field (`typeOfMember_views`); on a field of a struct behind another name they do not
(`reference_misses_field`).
-/

namespace ResourceLint

open Inference InferM

/-- The fields of the struct behind all wrappers, if there is one. -/
def Ty.fields (t : Ty) : Table Ty :=
  match t.unwrap with
  | .struct _ _ fields => fields
  | _ => ∅

variable {p : Program} {ask : Ask} {s s₁ : Session} {name home : String} {symbols : Symbols}
  {d : TypeDecl} {t : Ty}

/-- A name leads to the declaration of a struct if its declaration spells one out. -/
theorem Symbols.structDecl?_of_find? (h : symbols.types.find? name = some d) :
    symbols.structDecl? name = if d.structGroups?.isSome then some d else none := by
  rw [Symbols.structDecl?, h, Option.filter_some]

namespace Inference

theorem fieldOrMethod_of_field {fields : Table Ty} {member : String}
    (h : fields.find? member = some t) : fieldOrMethod p ask fields member name home = pure t := by
  rw [fieldOrMethod, h]

theorem fieldOrMethod_of_none {fields : Table Ty} {member : String}
    (h : fields.find? member = none) :
    fieldOrMethod p ask fields member name home =
      .func <$> methodSignature p ask member name home := by
  rw [fieldOrMethod, h, map_eq_pure_bind]

/-- On a type that stands for a name, methods are looked up by that name. -/
theorem typeOfMember_of_defines (h : t.Defines name home .struct) (member viewer : String) :
    typeOfMember p ask t member viewer = fieldOrMethod p ask t.fields member name home := by
  cases t with
  | struct n o fields =>
      obtain ⟨rfl, rfl⟩ := h
      rfl
  | wrapper n o wrapped =>
      obtain ⟨rfl, rfl⟩ := h
      rw [typeOfMember, Ty.fields, Ty.unwrap]
      cases wrapped.unwrap <;> rfl
  | _ => exact h.elim

theorem declaredFieldsIfAny_of_struct (hs : s.Sound p) (hsymbols : p.symbols home = .ok symbols)
    (hname : QualifiedName.isQualified name = false) (hd : symbols.structDecl? name = some d)
    (h : ask (.decl d) home (s.enter p home).2 = some (.ok t, s₁)) :
    declaredFieldsIfAny p ask name home s = some (.ok t.fields, s₁) := by
  obtain ⟨sc, s₀, henter, rfl⟩ := hs.exists_enter hsymbols
  rw [henter] at h
  have hfields : declaredFields p ask name home s = some (.ok t.fields, s₁) := by
    simp only [declaredFields, QualifiedName.split, hname, Bool.false_eq_true, if_false]
    rw [scope_bind_ok henter, hd]
    refine bind_eq_some.mpr (.inl ⟨t, s₁, h, ?_⟩)
    rw [Ty.fields]
    cases t.unwrap <;> rfl
  rw [declaredFieldsIfAny_apply, hfields]
  rfl

theorem declaredFieldsIfAny_of_none (hs : s.Sound p) (hsymbols : p.symbols home = .ok symbols)
    (hname : QualifiedName.isQualified name = false) (hd : symbols.structDecl? name = none) :
    declaredFieldsIfAny p ask name home s = some (.ok ∅, (s.enter p home).2) := by
  obtain ⟨sc, s₀, henter, rfl⟩ := hs.exists_enter hsymbols
  have hfields : declaredFields p ask name home s =
      some (.error (.unknownStruct name home), s₀) := by
    simp only [declaredFields, QualifiedName.split, hname, Bool.false_eq_true, if_false]
    rw [scope_bind_ok henter, hd]
    rfl
  rw [declaredFieldsIfAny_apply, hfields, henter]
  rfl

end Inference

/-- The module of a declaration may just as well have been entered before. -/
theorem infer_decl_of_enter {sc : Scope} (h : s.enter p home = (.ok sc, s₁)) (d : TypeDecl)
    (depth : Nat) : infer p depth (.decl d) home s = infer p depth (.decl d) home s₁ := by
  cases depth with
  | zero => rfl
  | succ depth =>
      change (Memo.type d).infer p _ home s = (Memo.type d).infer p _ home s₁
      exact Memo.infer_of_enter rfl h

/-- A type that has been told is told again without any change. -/
theorem Session.Entered.declaredType {sc : Scope} (h : s.Entered home sc)
    (ht : sc.types.find? d.name = some t) : Ends (p.declaredType · d home) s (.ok t) s :=
  ⟨1, show (Memo.type d).infer p (infer p 0) home s = _ from Memo.infer_hit rfl h ht⟩

/-- The type of a declaration stands for its name, and is remembered. -/
theorem Run.declaredType_ok (hrun : Run p (fun _ _ => True) .new s)
    (h : Ends (p.declaredType · d home) s (.ok t) s₁) :
    s₁.Sound p ∧ t.Defines d.name home .struct ∧
      ∃ sc, s₁.Entered home sc ∧ sc.types.find? d.name = some t := by
  have hp : p.Within fun _ _ => True := fun _ _ _ _ _ => trivial
  have hrun' : Run p (fun _ _ => True) .new s₁ :=
    hrun.tail ⟨.declaredType d home, fun _ _ => trivial, _, h⟩
  have hsettled : s₁.Settled fun _ _ => False := (hrun'.change hp Session.sound_new).settled .new
  obtain ⟨_ | depth, h⟩ := h
  · cases h
  obtain ⟨sc, hsc, ht⟩ := Change.leaves hp (Change.asks_infer hp depth) (.type d) rfl
    (fun _ _ => trivial) ((hrun.sound hp).within hp) h
  have ht : sc.entry .struct d.name = some t := ht
  exact ⟨hrun'.sound hp, (hsettled home sc hsc ht).resolve_right And.right, sc,
    (hrun'.sound hp).entered hsc, ht⟩

section Reference

variable (hs : s.Sound p) (hsymbols : p.symbols home = .ok symbols)
  (hd : symbols.types.find? d.name = some d) (hname : QualifiedName.isQualified d.name = false)

include hs hsymbols hd hname

/-- A reference to a declared struct has the members of the type declared, and looking for one has
the type told. -/
theorem typeOfMember_reference_struct (hgroups : d.structGroups?.isSome = true)
    (hdefines : t.Defines d.name home .struct) (h : Ends (p.declaredType · d home) s (.ok t) s₁)
    (member viewer : String) {r : Except InferError Ty} {s₂ : Session} :
    Ends (p.typeOfMember · (.reference d.name (some home)) member viewer) s r s₂ ↔
      Ends (p.typeOfMember · t member viewer) s₁ r s₂ := by
  have hd : symbols.structDecl? d.name = some d := by
    rw [Symbols.structDecl?_of_find? hd, if_pos hgroups]
  obtain ⟨least, h⟩ := h
  refine Ends.iff_of_le (p.typeOfMember_monotone ..) (p.typeOfMember_monotone ..)
    least fun depth hle => ?_
  have h : infer p depth (.decl d) home s = some (.ok t, s₁) := infer_monotone _ _ hle s _ h
  have hentered : infer p depth (.decl d) home (s.enter p home).2 = some (.ok t, s₁) := by
    obtain ⟨sc, s₀, henter, _⟩ := hs.exists_enter hsymbols
    rw [henter]
    rwa [infer_decl_of_enter henter] at h
  have hfields := declaredFieldsIfAny_of_struct hs hsymbols hname hd hentered
  calc p.typeOfMember depth (.reference d.name (some home)) member viewer s
      = fieldOrMethod p (infer p depth) t.fields member d.name home s₁ := by
        simp only [Program.typeOfMember, Ty.reference, typeOfMember, Option.getD_some, bind_apply,
          hfields]
    _ = p.typeOfMember depth t member viewer s₁ := by
        rw [Program.typeOfMember, typeOfMember_of_defines hdefines]

/-- A reference to any other declared type has methods only. -/
theorem typeOfMember_reference_other (hgroups : d.structGroups? = none) {sc : Scope}
    (hentered : s.Entered home sc) (member viewer : String) (depth : Nat) :
    p.typeOfMember depth (.reference d.name (some home)) member viewer s =
      (.func <$> p.methodSignature depth member d.name home) s := by
  have hd : symbols.structDecl? d.name = none := by
    rw [Symbols.structDecl?_of_find? hd, hgroups]
    rfl
  have hfields : declaredFieldsIfAny p (infer p depth) d.name home s = some (.ok ∅, s) := by
    rw [declaredFieldsIfAny_of_none hs hsymbols hname hd, hentered.enter_eq]
  simp only [Program.typeOfMember, Ty.reference, typeOfMember, Option.getD_some, bind_apply,
    hfields]
  rw [fieldOrMethod_of_none rfl, Program.methodSignature]

end Reference

/-- The members of a named type by its name and by its declaration: all members of a struct are the
same, also when looking one up by the name is what has the type told, and so are all other members
that are not fields. A field of a struct that the declaration only refers to is not found by the
name, which looks for a method instead. -/
theorem typeOfMember_views (hrun : Run p (fun _ _ => True) .new s)
    (hsymbols : p.symbols home = .ok symbols) (hd : symbols.types.find? d.name = some d)
    (hname : QualifiedName.isQualified d.name = false)
    (h : Ends (p.declaredType · d home) s (.ok t) s₁) (member viewer : String) :
    (d.structGroups?.isSome = true ∨ t.fields.find? member = none → ∀ r s₂,
      Ends (p.typeOfMember · (.reference d.name (some home)) member viewer) s₁ r s₂ ↔
        Ends (p.typeOfMember · t member viewer) s₁ r s₂) ∧
    (d.structGroups?.isSome = true → ∀ r s₂,
      Ends (p.typeOfMember · (.reference d.name (some home)) member viewer) s r s₂ ↔
        Ends (p.typeOfMember · t member viewer) s₁ r s₂) ∧
    (d.structGroups? = none → ∀ u, t.fields.find? member = some u →
      Ends (p.typeOfMember · t member viewer) s₁ (.ok u) s₁ ∧ ∀ r s₂,
        Ends (p.typeOfMember · (.reference d.name (some home)) member viewer) s₁ r s₂ ↔
          Ends (fun depth => .func <$> p.methodSignature depth member d.name home) s₁ r s₂) := by
  have hs : s.Sound p := hrun.sound fun _ _ _ _ _ => trivial
  obtain ⟨hs₁, hdefines, sc, hentered, ht⟩ := hrun.declaredType_ok h
  have hview (depth : Nat) : p.typeOfMember depth t member viewer =
      fieldOrMethod p (infer p depth) t.fields member d.name home :=
    typeOfMember_of_defines hdefines member viewer
  have hmethod (hgroups : d.structGroups? = none) :=
    typeOfMember_reference_other hs₁ hsymbols hd hname hgroups hentered member viewer
  refine ⟨fun hmember r s₂ => ?_, fun hgroups r s₂ => ?_, fun hgroups u hu => ⟨⟨0, ?_⟩, ?_⟩⟩
  · cases hgroups : d.structGroups? with
    | some groups =>
        exact typeOfMember_reference_struct hs₁ hsymbols hd hname (by rw [hgroups]; rfl) hdefines
          (hentered.declaredType ht) member viewer
    | none =>
        have hnone := hmember.resolve_left (by rw [hgroups]; simp)
        refine exists_congr fun depth => ?_
        dsimp only
        rw [hmethod hgroups, hview, fieldOrMethod_of_none hnone, Program.methodSignature]
  · exact typeOfMember_reference_struct hs hsymbols hd hname hgroups hdefines h member viewer
  · dsimp only
    rw [hview, fieldOrMethod_of_field hu, pure_apply]
  · intro r s₂
    refine exists_congr fun depth => ?_
    dsimp only
    rw [hmethod hgroups]

/-- `type Depot struct { Base; Size int }` -/
def depotDecl : TypeDecl :=
  ⟨"Depot", ⟨.zero, .structType [⟨[], ⟨.zero, .ident "Base" none⟩, .zero⟩,
    ⟨["Size"], ⟨.zero, .ident "int" none⟩, .zero⟩]⟩, .zero⟩

/-- `type Site Base` -/
def siteDecl : TypeDecl :=
  ⟨"Site", ⟨.zero, .ident "Base" (some (.type baseDecl))⟩, .zero⟩

/-- `func (Site) Open() bool` -/
def openSite : FuncDecl :=
  ⟨"Open", some ⟨none, ⟨.zero, .ident "Site" (some (.type siteDecl))⟩⟩, [],
    [⟨[], ⟨.zero, .ident "bool" none⟩, .zero⟩], [], .zero⟩

def sites : Program :=
  (Program.empty []).add ⟨"m", "m", [], [openSite], [baseDecl, depotDecl, siteDecl], [], ∅⟩

theorem sites_views :
    (∃ t s₁ s₂, Ends (sites.declaredType · depotDecl "m") .new (.ok t) s₁ ∧
      Ends (sites.typeOfMember · (.reference "Depot" (some "m")) "Region" "m") .new
        (.ok (.predeclared "string")) s₂) ∧
    ∃ t s₁ sig s₂, Ends (sites.declaredType · siteDecl "m") .new (.ok t) s₁ ∧
      Ends (sites.typeOfMember · (.reference "Site" (some "m")) "Open" "m") s₁
        (.ok (.func sig)) s₂ ∧
      sig.receiver = some "Site" := by
  constructor
  · obtain ⟨t, s₁, h, hview⟩ : ∃ t s₁,
        sites.declaredType 4 depotDecl "m" .new = some (.ok t, s₁) ∧
          sites.typeOfMember 0 t "Region" "m" s₁ = some (.ok (.predeclared "string"), s₁) :=
      ⟨_, _, rfl, rfl⟩
    have hviews := typeOfMember_views .refl rfl rfl (by decide) ⟨4, h⟩ "Region" "m"
    exact ⟨t, s₁, s₁, ⟨4, h⟩, (hviews.2.1 rfl _ _).mpr ⟨0, hview⟩⟩
  · obtain ⟨t, s₁, h, hmember, sig, s₂, hview, hreceiver⟩ : ∃ t s₁,
        sites.declaredType 4 siteDecl "m" .new = some (.ok t, s₁) ∧
          t.fields.find? "Open" = none ∧ ∃ sig s₂,
            sites.typeOfMember 4 t "Open" "m" s₁ = some (.ok (.func sig), s₂) ∧
              sig.receiver = some "Site" :=
      ⟨_, _, rfl, rfl, _, _, rfl, rfl⟩
    have hviews := typeOfMember_views .refl rfl rfl (by decide) ⟨4, h⟩ "Open" "m"
    exact ⟨t, s₁, sig, s₂, ⟨4, h⟩, (hviews.1 (.inr hmember) _ _).mpr ⟨4, hview⟩, hreceiver⟩

/-- A `Site` has the fields of the `Base` that it is, but not when it is only referred to. -/
theorem reference_misses_field : ∃ t s₁,
    Ends (sites.declaredType · siteDecl "m") .new (.ok t) s₁ ∧
    Ends (sites.typeOfMember · t "Region" "m") s₁ (.ok (.predeclared "string")) s₁ ∧
    Ends (sites.typeOfMember · (.reference "Site" (some "m")) "Region" "m") s₁
      (.error (.missingMethod "Region" "Site")) s₁ ∧
    ¬ ∀ r s₂, Ends (sites.typeOfMember · (.reference "Site" (some "m")) "Region" "m") s₁ r s₂ ↔
      Ends (sites.typeOfMember · t "Region" "m") s₁ r s₂ := by
  obtain ⟨t, s₁, h, hfield, hmissing⟩ : ∃ t s₁,
      sites.declaredType 4 siteDecl "m" .new = some (.ok t, s₁) ∧
        sites.typeOfMember 4 t "Region" "m" s₁ = some (.ok (.predeclared "string"), s₁) ∧
        sites.typeOfMember 4 (.reference "Site" (some "m")) "Region" "m" s₁ =
          some (.error (.missingMethod "Region" "Site"), s₁) :=
    ⟨_, _, rfl, rfl, rfl⟩
  refine ⟨t, s₁, ⟨4, h⟩, ⟨4, hfield⟩, ⟨4, hmissing⟩, fun hagree => ?_⟩
  have hfound := (hagree _ _).mpr ⟨4, hfield⟩
  cases (Ends.unique (sites.typeOfMember_monotone ..) hfound ⟨4, hmissing⟩).1

end ResourceLint
