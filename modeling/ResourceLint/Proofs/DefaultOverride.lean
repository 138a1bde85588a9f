import ResourceLint.Proofs.Origin
import ResourceLint.Proofs.QualifiedNames
import ResourceLint.Proofs.Retry
import ResourceLint.Settings

/-!
# The type `Set` of the schema package

Unless a settings file says otherwise, the type `Set` of the schema package counts as a list. The
override is written under the path of the package and looked for under the qualified name of a
wrapper, and both are the same for every path. Declared types are wrappers, so however `Set` is
declared, a reference to it fits a list exactly when its declaration resolves, and goes on to do so
(`set_fits_array`). Whether the declaration resolves can depend on what has been asked before, so a
reference to a `Set` that resolves in a new session need not fit a list in every other one
(`set_can_be_lost`).
-/

namespace ResourceLint

open Inference InferM

variable {p : Program} {s s' s₁ s₂ : Session} {home name path : String} {symbols : Symbols}
  {d : TypeDecl} {t : Ty} {expected : Expectation} {overrides : Overrides}

/-- Overrides that are left out follow the path. -/
theorem Settings.overrides_ofFile {f : SettingsFile}
    (hpath : f.schemaPath.getD defaultSchemaPath = path) (h : f.overrides = none) :
    (Settings.ofFile f).overrides = defaultOverrides path := by
  subst hpath
  simp only [Settings.ofFile, h, Option.getD_none]
  rfl

theorem Settings.find?_defaultOverrides (hpath : path.isEmpty = false) :
    (defaultOverrides path).find? (QualifiedName.qualify path "Set") = some .array := by
  rw [QualifiedName.qualify_of_notMem hpath (by decide), String.append_assoc, defaultOverrides,
    Table.find?_ofList, List.reverse_singleton, Table.lookup_entry]
  exact if_pos rfl

/-- `Set` fits a list and nothing else, whatever it wraps. -/
theorem Ty.fits_set (hpath : path.isEmpty = false) (wrapped : Ty) (expected : Expectation) :
    (Ty.wrapper "Set" path wrapped).fits expected (Settings.defaultOverrides path) =
      .ok (decide (expected.text = "array")) := by
  rw [Ty.fits, Settings.find?_defaultOverrides hpath]
  simp only [eq_comm (a := expected.text)]
  rfl

namespace Program

/-- The name of a declaration has the type that the declaration declares. -/
theorem localType_eq_declaredType (hs : s.Sound p) (hsymbols : p.symbols home = .ok symbols)
    (hd : symbols.types.find? name = some d) (depth : Nat) :
    p.localType depth name home s = p.declaredType depth d home s := by
  obtain ⟨sc, s₀, henter, rfl⟩ := hs.exists_enter hsymbols
  rw [localType, Inference.localType, scope_bind_ok henter, hd]
  exact (infer_decl_of_enter henter d depth).symm

/-- A reference that fits nothing as it is fits what the declaration of its name fits. -/
theorem fits_reference_eq (hs : s.Sound p) (hsymbols : p.symbols home = .ok symbols)
    (hd : symbols.types.find? name = some d)
    (hfits : (Ty.reference name (some home)).fits expected overrides = .ok false) (depth : Nat) :
    p.fits depth (.reference name (some home)) expected overrides s =
      (p.declaredType depth d home s).map fun found =>
        (Ty.fitsFound expected overrides found.1, found.2) := by
  have hname : (Ty.reference name (some home)).name = name := rfl
  rw [fits_apply depth rfl, hfits, hname, localType_eq_declaredType hs hsymbols hd]

end Program

/-- The type that a declaration declares is a wrapper under its name. -/
theorem Run.declaredType_wrapper (hrun : Run p (fun _ _ => True) .new s)
    (hplain : InPlaceKind.struct.looksDrawn d.name = false)
    (h : Ends (p.declaredType · d home) s (.ok t) s') : ∃ body, t = .wrapper d.name home body := by
  have hp : p.Within fun _ _ => True := fun _ _ _ _ _ => trivial
  obtain ⟨d', _, hname, hmakes⟩ := hrun.declaredType_origin hp (fun _ _ => trivial) hplain h
  obtain ⟨_, body, _, _, rfl, _⟩ := hmakes.wraps
  exact ⟨body, by rw [hname]⟩

section SetReference

variable (hrun : Run p (fun _ _ => True) .new s) (hpath : path.isEmpty = false)
  (hexpected : expected.text = "array")

include hpath hexpected

/-- By itself, a reference to `Set` does not fit a list. -/
theorem Ty.fits_reference_set :
    (Ty.reference "Set" (some path)).fits expected overrides = .ok false :=
  Ty.fits_reference_of_notMem hpath rfl expected (by rw [hexpected]; decide) overrides

include hrun

/-- A declaration of `Set` declares a type that fits a list. -/
theorem Run.fits_declared_set (hname : d.name = "Set")
    (h : Ends (p.declaredType · d path) s (.ok t) s₁) :
    t.fits expected (Settings.defaultOverrides path) = .ok true := by
  obtain ⟨body, rfl⟩ := hrun.declaredType_wrapper (by rw [hname]; decide) h
  rw [hname, Ty.fits_set hpath, hexpected]
  rfl

variable (hsymbols : p.symbols path = .ok symbols) (hd : symbols.types.find? "Set" = some d)

include hsymbols hd

/-- A reference to `Set` fits a list just if the declaration resolves. -/
theorem Run.ends_fits_set_iff (r : Except InferError Bool) (s' : Session) :
    Ends (p.fits · (.reference "Set" (some path)) expected (Settings.defaultOverrides path)) s r
        s' ↔
      ∃ q, Ends (p.declaredType · d path) s q s' ∧ r = .ok q.isOk := by
  have hs := hrun.sound fun _ _ _ _ _ => trivial
  obtain ⟨m, _, hm⟩ := Program.symbols_eq_ok hsymbols
  obtain ⟨_, hname⟩ := Symbols.type_of_find? hm hd
  have hfound : ∀ {q s'}, Ends (p.declaredType · d path) s q s' →
      Ty.fitsFound expected (Settings.defaultOverrides path) q = .ok q.isOk := by
    intro q s' hq
    cases q with
    | error e => rfl
    | ok t => exact hrun.fits_declared_set hpath hexpected hname hq
  rw [Ends.outcome_iff (p.fits_reference_eq hs hsymbols hd (Ty.fits_reference_set hpath hexpected))]
  constructor
  · rintro ⟨q, s₁, hq, heq⟩
    cases heq
    exact ⟨q, hq, hfound hq⟩
  · rintro ⟨q, hq, rfl⟩
    exact ⟨q, s', hq, Prod.ext (hfound hq) rfl⟩

/-- Once a declaration of `Set` has resolved, a reference to `Set` fits a list for good. -/
theorem Run.ends_fits_set_later {d' : TypeDecl} (hname : d'.name = "Set")
    (h : Ends (p.declaredType · d' path) s (.ok t) s₁) (hlater : Run p (fun _ _ => True) s₁ s₂)
    (r : Except InferError Bool) (s₃ : Session) :
    Ends (p.fits · (.reference "Set" (some path)) expected (Settings.defaultOverrides path)) s₂ r
        s₃ ↔
      r = .ok true ∧ s₃ = s₂ := by
  obtain ⟨hs₂, _, hrecalls⟩ := hrun.recalls_declared (by rw [hname]; decide) h hlater
  rw [hname] at hrecalls
  have hdeclared : symbols.types.contains "Set" = true := by
    rw [Table.contains_eq, hd, Option.isSome_some]
  rw [p.ends_fits_iff hs₂ hsymbols hdeclared hrecalls ⟨rfl, rfl⟩
    (.inl (Ty.fits_reference_set hpath hexpected)), hrun.fits_declared_set hpath hexpected hname h]

end SetReference

/-- With settings that give a path for the schema package, or none, and no overrides, the type `Set`
of the package fits a list and nothing else, whatever it wraps. Whatever has been asked before, a
reference to `Set` fits a list exactly when the declaration of `Set` resolves, and once one has
resolved the reference fits a list without any change to the session. -/
theorem set_fits_array {f : SettingsFile} {path : String}
    (hgiven : f.schemaPath.getD Settings.defaultSchemaPath = path) (hpath : path ≠ "")
    (hoverrides : f.overrides = none) :
    (∀ wrapped expected, (Ty.wrapper "Set" path wrapped).fits expected
      (Settings.ofFile f).overrides = .ok (decide (expected.text = "array"))) ∧
    ∀ {p : Program} {s : Session} {symbols : Symbols} {d : TypeDecl} {expected : Expectation},
      Run p (fun _ _ => True) .new s → p.symbols path = .ok symbols →
      symbols.types.find? "Set" = some d → expected.text = "array" →
      (∀ r s', Ends (p.fits · (.reference "Set" (some path)) expected
          (Settings.ofFile f).overrides) s r s' ↔
        ∃ q, Ends (p.declaredType · d path) s q s' ∧ r = .ok q.isOk) ∧
      ∀ {d' t s₁ s₂}, d'.name = "Set" → Ends (p.declaredType · d' path) s (.ok t) s₁ →
        Run p (fun _ _ => True) s₁ s₂ → ∀ r s₃,
        Ends (p.fits · (.reference "Set" (some path)) expected (Settings.ofFile f).overrides) s₂ r
          s₃ ↔ r = .ok true ∧ s₃ = s₂ := by
  have hpath : path.isEmpty = false := by simpa using hpath
  rw [Settings.overrides_ofFile hgiven hoverrides]
  refine ⟨Ty.fits_set hpath, fun hrun hsymbols hd hexpected => ⟨?_, fun hname h hlater => ?_⟩⟩
  · exact hrun.ends_fits_set_iff hpath hexpected hsymbols hd
  · exact hrun.ends_fits_set_later hpath hexpected hsymbols hd hname h hlater

/-- `type Set struct { Size int }` -/
def setDecl : TypeDecl :=
  ⟨"Set", ⟨.zero, .structType [⟨["Size"], ⟨.zero, .ident "int" none⟩, .zero⟩]⟩, .zero⟩

def schemas : Program :=
  (Program.empty []).add ⟨"lib.org/v2.1", "schema", [], [], [setDecl], [], ∅⟩

/-- A file that gives the path of the schema package only. -/
def pathOnly (path : String) : SettingsFile :=
  ⟨some path, none, none, none⟩

theorem schemas_fit : ∃ t s₁ s₂,
    Ends (schemas.declaredType · setDecl "lib.org/v2.1") .new (.ok t) s₁ ∧
    (∃ u, Ends (schemas.typeOf · sizeStruct "lib.org/v2.1") s₁ (.ok u) s₂) ∧
    t.unwrap.fits (.category .array) (Settings.ofFile (pathOnly "lib.org/v2.1")).overrides =
      .error (.structCategory "lib.org/v2.1.Set" "array") ∧
    t.fits (.category .map) (Settings.ofFile (pathOnly "lib.org/v2.1")).overrides = .ok false ∧
    Ends (schemas.fits · (.reference "Set" (some "lib.org/v2.1")) (.category .array)
      (Settings.ofFile (pathOnly "lib.org/v2.1")).overrides) .new (.ok true) s₁ ∧
    Ends (schemas.fits · (.reference "Set" (some "lib.org/v2.1")) (.named "array")
      (Settings.ofFile (pathOnly "lib.org/v2.1")).overrides) s₂ (.ok true) s₂ := by
  obtain ⟨wrapped, s₁, h, hstruct, u, s₂, hu⟩ : ∃ wrapped s₁,
      schemas.declaredType 4 setDecl "lib.org/v2.1" .new =
        some (.ok (.wrapper "Set" "lib.org/v2.1" wrapped), s₁) ∧
      (Ty.wrapper "Set" "lib.org/v2.1" wrapped).unwrap.fits (.category .array)
        (Settings.ofFile (pathOnly "lib.org/v2.1")).overrides =
          .error (.structCategory "lib.org/v2.1.Set" "array") ∧
      ∃ u s₂, schemas.typeOf 4 sizeStruct "lib.org/v2.1" s₁ = some (.ok u, s₂) :=
    ⟨_, _, rfl, by decide +kernel, _, _, rfl⟩
  have hlater : Run schemas (fun _ _ => True) s₁ s₂ :=
    .single ⟨.typeOf sizeStruct "lib.org/v2.1", fun _ _ => trivial, _, 4, hu⟩
  obtain ⟨hfits, hends⟩ := set_fits_array (f := pathOnly "lib.org/v2.1") rfl (by decide) rfl
  refine ⟨_, s₁, s₂, ⟨4, h⟩, ⟨u, 4, hu⟩, hstruct, hfits wrapped (.category .map), ?_, ?_⟩
  · exact ((hends .refl rfl rfl rfl).1 _ _).mpr ⟨_, ⟨4, h⟩, rfl⟩
  · exact ((hends .refl rfl rfl rfl).2 rfl ⟨4, h⟩ hlater _ _).mpr ⟨rfl, rfl⟩

/-- `type Entry struct { Holder }` -/
def entryDecl : TypeDecl :=
  ⟨"Entry", ⟨.zero, .structType [⟨[], ⟨.zero, .ident "Holder" none⟩, .zero⟩]⟩, .zero⟩

/-- `type Index map[*Entry]int` -/
def indexDecl : TypeDecl :=
  ⟨"Index", ⟨.zero, .mapType ⟨.zero, .star ⟨.zero, .ident "Entry" (some (.type entryDecl))⟩⟩
    ⟨.zero, .ident "int" none⟩⟩, .zero⟩

/-- `type Holder struct { Places Index }` -/
def holderDecl : TypeDecl :=
  ⟨"Holder", ⟨.zero, .structType
    [⟨["Places"], ⟨.zero, .ident "Index" (some (.type indexDecl))⟩, .zero⟩]⟩, .zero⟩

/-- `type Set struct { First Entry; Places Index }` -/
def indexedSetDecl : TypeDecl :=
  ⟨"Set", ⟨.zero, .structType
    [⟨["First"], ⟨.zero, .ident "Entry" (some (.type entryDecl))⟩, .zero⟩,
      ⟨["Places"], ⟨.zero, .ident "Index" (some (.type indexDecl))⟩, .zero⟩]⟩, .zero⟩

def indexedSets : Program :=
  (Program.empty []).add ⟨"schema", "schema", [], [],
    [entryDecl, indexDecl, holderDecl, indexedSetDecl], [], ∅⟩

/-- The module declares a `Set` that resolves in a new session, but a reference to it does not fit a
list in every session that can be reached. Asked for first, `Index` has `Entry` worked out, which is
then a wrapper and no key of a map, so neither `Index` nor `Set` can be told any more. Asked for
first, `Set` has `Index` worked out on the way to `Entry`, while `Entry` is a mere name. -/
theorem set_can_be_lost : ∃ symbols t s₁ e s₂ s₃,
    indexedSets.symbols "schema" = .ok symbols ∧ symbols.types.find? "Set" = some indexedSetDecl ∧
    Ends (indexedSets.declaredType · indexedSetDecl "schema") .new (.ok t) s₁ ∧
    Ends (indexedSets.declaredType · indexDecl "schema") .new (.error e) s₂ ∧
    Run indexedSets (fun _ _ => True) .new s₂ ∧
    Ends (indexedSets.fits · (.reference "Set" (some "schema")) (.category .array)
      (Settings.ofFile (pathOnly "schema")).overrides) s₂ (.ok false) s₃ ∧
    ¬ ∃ s₄, Ends (indexedSets.fits · (.reference "Set" (some "schema")) (.category .array)
      (Settings.ofFile (pathOnly "schema")).overrides) s₂ (.ok true) s₄ := by
  obtain ⟨symbols, t, s₁, e, s₂, s₃, hsymbols, hset, hfirst, hindex, hfits⟩ :
      ∃ symbols t s₁ e s₂ s₃, indexedSets.symbols "schema" = .ok symbols ∧
        symbols.types.find? "Set" = some indexedSetDecl ∧
        indexedSets.declaredType 12 indexedSetDecl "schema" .new = some (.ok t, s₁) ∧
        indexedSets.declaredType 12 indexDecl "schema" .new = some (.error e, s₂) ∧
        indexedSets.fits 12 (.reference "Set" (some "schema")) (.category .array)
          (Settings.ofFile (pathOnly "schema")).overrides s₂ = some (.ok false, s₃) :=
    ⟨_, _, _, _, _, _, rfl, rfl, rfl, rfl, rfl⟩
  refine ⟨symbols, t, s₁, e, s₂, s₃, hsymbols, hset, ⟨12, hfirst⟩, ⟨12, hindex⟩, ?_, ⟨12, hfits⟩,
    ?_⟩
  · exact .single ⟨.declaredType indexDecl "schema", fun _ _ => trivial, _, 12, hindex⟩
  · rintro ⟨s₄, htrue⟩
    cases (Ends.unique (indexedSets.fits_monotone ..) htrue ⟨12, hfits⟩).1

end ResourceLint
