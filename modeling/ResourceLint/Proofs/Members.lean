import ResourceLint.Proofs.MethodLookup
import ResourceLint.Proofs.Views

/-!
# Fields come before methods

The members of a declared type are its fields and its methods. Fields are looked at first, and the
fields that the types it embeds promote are among them. So a method declared for a struct is a
member of it unless a field of that name, own or promoted, hides it (`typeOfMember_of_method`); that
the struct declares no such field itself is not enough (`method_can_be_missed`).
-/

namespace ResourceLint

open Inference InferM QualifiedName

variable {p : Program} {ask : Ask} {s s₁ s₂ : Session} {home receiver : String} {symbols : Symbols}
  {d : TypeDecl} {f : FuncDecl} {t : Ty}

/-- A method of the type itself comes before those of the types that it embeds. -/
theorem methodSignature_of_own (hs : s.Sound p) (hsymbols : p.symbols home = .ok symbols)
    (hname : isQualified receiver = false) (hreceiver : f.receiverType? = some (some receiver))
    (hf : symbols.functions.find? f.key = some f) :
    methodSignature p ask f.name receiver home s =
      ((fun sig => { sig with receiver := some receiver }) <$>
        declaredSignature p ask f home) s := by
  have hnamed : namedSignature p ask f.key home s = declaredSignature p ask f home s :=
    namedSignature_eq hs hsymbols hf
  obtain ⟨sc, s₀, henter, rfl⟩ := hs.exists_enter hsymbols
  have hkey := (f.key_of_receiver hreceiver).symm
  -- The type itself is the first of those whose methods it has.
  have hown : (methodOwners sc.symbols receiver).find?
      (fun owner => sc.symbols.functions.contains (QualifiedName.method (some owner) f.name)) =
        some receiver := by
    refine List.find?_cons_of_pos ?_
    rw [hkey, Table.contains_eq, hf, Option.isSome_some]
  rw [map_apply, ← hnamed, ← map_apply]
  simp only [methodSignature, split, hname, Bool.false_eq_true, if_false]
  rw [scope_bind_ok henter, hown]
  simp only [hkey, map_eq_pure_bind, namedSignature, bind_assoc]
  rw [scope_bind_ok henter, scope_bind_ok (Session.entered_of_enter henter).enter_eq]

/-- A method that a module knows as one of a declared type is a member of that type, with whatever
comes of its signature, unless the type has a field of that name: then the field is the member, also
if it is a promoted one. -/
theorem typeOfMember_of_method (hrun : Run p (fun _ _ => True) .new s)
    (h : Ends (p.declaredType · d home) s (.ok t) s₁) (hlater : Run p (fun _ _ => True) s₁ s₂)
    (hsymbols : p.symbols home = .ok symbols) (hname : isQualified d.name = false)
    (hreceiver : f.receiverType? = some (some d.name))
    (hf : symbols.functions.find? f.key = some f) (viewer : String) :
    (t.fields.find? f.name = none → ∀ r s₃,
      Ends (p.typeOfMember · t f.name viewer) s₂ r s₃ ↔ ∃ q,
        Ends (p.declaredSignature · f home) s₂ q s₃ ∧
          r = q.map fun sig => .func { sig with receiver := some d.name }) ∧
    ∀ u, t.fields.find? f.name = some u → ∀ r s₃,
      Ends (p.typeOfMember · t f.name viewer) s₂ r s₃ ↔ r = .ok u ∧ s₃ = s₂ := by
  have hp : p.Within fun _ _ => True := fun _ _ _ _ _ => trivial
  obtain ⟨hs₁, hdefines, -⟩ := hrun.declaredType_ok h
  have hs₂ : s₂.Sound p := (hlater.change hp hs₁).sound hs₁
  have hview (depth : Nat) : p.typeOfMember depth t f.name viewer =
      fieldOrMethod p (infer p depth) t.fields f.name d.name home :=
    typeOfMember_of_defines hdefines f.name viewer
  refine ⟨fun hnone r s₃ => ?_, fun u hu r s₃ => ?_⟩
  · rw [← ends_map_iff]
    refine exists_congr fun depth => ?_
    dsimp only
    rw [hview, fieldOrMethod_of_none hnone, map_apply,
      methodSignature_of_own hs₂ hsymbols hname hreceiver hf, map_apply, map_apply,
      Program.declaredSignature]
    rcases declaredSignature p (infer p depth) f home s₂ with _ | ⟨_ | _, _⟩ <;> rfl
  · have hfield : Ends (p.typeOfMember · t f.name viewer) s₂ (.ok u) s₂ := by
      refine ⟨0, ?_⟩
      dsimp only
      rw [hview, fieldOrMethod_of_field hu, pure_apply]
    exact hfield.iff_of_ends (p.typeOfMember_monotone t f.name viewer) r s₃

/-- A `Depot` has the fields of the `Base` that it embeds, and two methods, one of which goes by the
name of such a field. -/
def depots : Program :=
  (Program.empty []).add ⟨"m", "m", [], [methodDecl "Depot" "Open" "bool",
    methodDecl "Depot" "Region" "int"], [baseDecl, depotDecl], [], ∅⟩

theorem depots_members : ∃ t s₁ sig s₂,
    Ends (depots.declaredType · depotDecl "m") .new (.ok t) s₁ ∧
    Ends (depots.typeOfMember · t "Open" "m") s₁ (.ok (.func sig)) s₂ ∧
    sig.receiver = some "Depot" ∧ sig.results = [.predeclared "bool"] ∧
    Ends (depots.typeOfMember · t "Region" "m") s₁ (.ok (.predeclared "string")) s₁ := by
  obtain ⟨t, s₁, h, hopen, hregion, sig, s₂, hsig, hreceiver, hresults⟩ : ∃ t s₁,
      depots.declaredType 4 depotDecl "m" .new = some (.ok t, s₁) ∧
        t.fields.find? "Open" = none ∧ t.fields.find? "Region" = some (.predeclared "string") ∧
        ∃ sig s₂, depots.declaredSignature 4 (methodDecl "Depot" "Open" "bool") "m" s₁ =
          some (.ok sig, s₂) ∧ sig.receiver = some "Depot" ∧ sig.results = [.predeclared "bool"] :=
    ⟨_, _, rfl, rfl, rfl, _, _, rfl, rfl, rfl⟩
  have hmethod := typeOfMember_of_method (f := methodDecl "Depot" "Open" "bool") .refl ⟨4, h⟩ .refl
    rfl (by decide) rfl rfl "m"
  have hfield := typeOfMember_of_method (f := methodDecl "Depot" "Region" "int") .refl ⟨4, h⟩ .refl
    rfl (by decide) rfl rfl "m"
  exact ⟨t, s₁, { sig with receiver := some "Depot" }, s₂, ⟨4, h⟩,
    (hmethod.1 hopen _ _).mpr ⟨.ok sig, ⟨4, hsig⟩, rfl⟩, rfl, hresults,
    (hfield.2 _ hregion _ _).mpr ⟨rfl, rfl⟩⟩

/-- `type lib.Depot struct { Size int }` -/
def qualifiedDecl : TypeDecl :=
  ⟨"lib.Depot", ⟨.zero, .structType [⟨["Size"], ⟨.zero, .ident "int" none⟩, .zero⟩]⟩, .zero⟩

def qualifiedDepots : Program :=
  (Program.empty []).add ⟨"m", "m", [], [methodDecl "lib.Depot" "Open" "bool"], [qualifiedDecl],
    [], ∅⟩

/-- The `Region` that `Depot` embeds hides its method of that name, although no group of `Depot`
declares a field `Region`. The methods of a type whose own name is a qualified one are looked for in
another module. -/
theorem method_can_be_missed :
    (∃ groups t s₁ sig s₂, depotDecl.structGroups? = some groups ∧
      (∀ g ∈ groups, ¬ g.Declares "Region") ∧
      Ends (depots.declaredType · depotDecl "m") .new (.ok t) s₁ ∧
      Ends (depots.declaredSignature · (methodDecl "Depot" "Region" "int") "m") s₁ (.ok sig) s₂ ∧
      Ends (depots.typeOfMember · t "Region" "m") s₂ (.ok (.predeclared "string")) s₂ ∧
      ¬ ∃ s₃, Ends (depots.typeOfMember · t "Region" "m") s₂ (.ok (.func sig)) s₃) ∧
    ∃ t s₁ sig s₂, t.fields.find? "Open" = none ∧
      Ends (qualifiedDepots.declaredType · qualifiedDecl "m") .new (.ok t) s₁ ∧
      Ends (qualifiedDepots.declaredSignature · (methodDecl "lib.Depot" "Open" "bool") "m") s₁
        (.ok sig) s₂ ∧
      Ends (qualifiedDepots.typeOfMember · t "Open" "m") s₂ (.error (.unknownModule "lib")) s₂ := by
  constructor
  · obtain ⟨groups, t, s₁, sig, s₂, hgroups, h, hsig, hmember⟩ : ∃ groups t s₁ sig s₂,
        depotDecl.structGroups? = some groups ∧
        depots.declaredType 4 depotDecl "m" .new = some (.ok t, s₁) ∧
        depots.declaredSignature 4 (methodDecl "Depot" "Region" "int") "m" s₁ =
          some (.ok sig, s₂) ∧
        depots.typeOfMember 4 t "Region" "m" s₂ = some (.ok (.predeclared "string"), s₂) :=
      ⟨_, _, _, _, _, rfl, rfl, rfl, rfl⟩
    refine ⟨groups, t, s₁, sig, s₂, hgroups, ?_, ⟨4, h⟩, ⟨4, hsig⟩, ⟨4, hmember⟩, ?_⟩
    · cases hgroups
      decide
    · rintro ⟨s₃, hfunc⟩
      cases (Ends.unique (depots.typeOfMember_monotone ..) hfunc ⟨4, hmember⟩).1
  · exact ⟨_, _, _, _, rfl, ⟨4, rfl⟩, ⟨4, rfl⟩, ⟨4, rfl⟩⟩

end ResourceLint
