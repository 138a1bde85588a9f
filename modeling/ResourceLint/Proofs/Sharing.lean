import Mathlib.Data.List.Forall2
import Mathlib.Data.List.Nodup
import ResourceLint.Proofs.Apart
import ResourceLint.Proofs.Simulation

/-!
# Sharing a session

A session remembers types, so what a generator's check finds may depend on what was checked before
it. It does not if the program is `Sharable`: what can be remembered is told apart by its place, and
the types of all values can be worked out without memory. Then a run has the same findings as checks
of the generators in sessions of their own, apart from the wording of types and causes.
-/

namespace ResourceLint

open InferM

/-- Findings of one kind at one place. Only what was inferred about the value may be worded
differently. -/
inductive Finding.Alike : Finding → Finding → Prop
  | refl (f : Finding) : Alike f f
  | typeMismatch (location : Location) (key found found' expected : String) :
      Alike (.typeMismatch location key found expected) (.typeMismatch location key found' expected)
  | unresolved (location : Location) (key : String) (cause cause' : InferError) :
      Alike (.unresolved location key cause) (.unresolved location key cause')

theorem Finding.Alike.join {f g common : Finding} (h : f.Alike common) (h' : g.Alike common) :
    f.Alike g := by
  cases h <;> cases h' <;> constructor

theorem Finding.Alike.join_toList {found found' common : Option Finding}
    (h : Option.Rel Alike found common) (h' : Option.Rel Alike found' common) :
    List.Forall₂ Alike found.toList found'.toList := by
  cases h with
  | none =>
      cases h'
      exact .nil
  | some hf =>
      cases h' with
      | some hg => exact .cons (hf.join hg) .nil

namespace Simulation

variable {p : Program} {known : String → Memo → Prop} (hp : Unambiguous p known) (n : Nat)

/-- Nothing is declared under the names of types that are named differently. -/
theorem localType {t u : Ty} (h : Ty.Like .blanked t u) (owner : String) :
    (comparison hp (n + 1)).holds (Ty.Like .blanked)
      (Inference.localType p (infer p n) t.name owner)
      (Inference.localType p (inferAlone p n) u.name owner) := by
  rcases h.name_or_drawn with heq | ⟨ht, hu⟩
  · rw [heq]
    exact (comparison hp (n + 1)).localType (asks_succ hp fun k _ => asks hp k)
      (memory hp fun k _ => asks hp k) u.name owner
  · unfold Inference.localType
    refine (comparison hp (n + 1)).holds_bind ((comparison hp (n + 1)).holds_scope owner)
      fun sc sc' ⟨hsame, _, hsymbols⟩ => ?_
    have hclear := hp.clear_symbols hsymbols
    rw [← hsame]
    simp only [hclear.types ht, hclear.types hu, hclear.functions ht, hclear.functions hu]
    exact (comparison hp (n + 1)).holds_fail rfl

theorem fitsField {t u : Ty} (h : Ty.Like .blanked t u) (settings : Settings)
    (field : SchemaField) :
    (comparison hp (n + 1)).holds Eq (Check.fitsField p (infer p n) settings t field)
      (Check.fitsField p (inferAlone p n) settings u field) := by
  refine (comparison hp (n + 1)).holds_bind (tolerant hp (n + 1) ((comparison hp (n + 1)).fits
    (tolerant hp (n + 1)) h (fun owner _ => localType hp n h owner) field.expected
    settings.overrides)) fun a b hab => ?_
  cases a with
  | ok fits =>
      cases b with
      | ok _ => exact (comparison hp (n + 1)).holds_pure hab
      | error _ => cases hab
  | error _ =>
      cases b with
      | ok _ => cases hab
      | error _ => exact (comparison hp (n + 1)).holds_pure rfl

theorem ofSetter (settings : Settings) {target : ResourceDef} {setter : Setter}
    (h : ∀ memo ∈ setter.value.memos, known target.module memo) :
    (comparison hp (n + 1)).holds (Option.Rel Finding.Alike)
      (Check.ofSetter p (infer p n) settings target setter)
      (Check.ofSetter p (inferAlone p n) settings target setter) := by
  unfold Check.ofSetter
  cases target.schema.find? setter.key with
  | none => exact (comparison hp (n + 1)).holds_pure (.some (.refl _))
  | some field =>
      refine (comparison hp (n + 1)).holds_bind (tolerant hp (n + 1)
        (asks_succ hp (fun k _ => asks hp k) (.expr setter.value) target.module trivial h))
        fun a b hab => ?_
      cases a with
      | error cause =>
          cases b with
          | ok _ => cases hab
          | error cause' => exact (comparison hp (n + 1)).holds_pure (.some (.unresolved ..))
      | ok t =>
          cases b with
          | error _ => cases hab
          | ok u =>
              have hfits := fitsField hp n hab settings field
              cases hab.form with
              | stub => exact (comparison hp (n + 1)).holds_pure (.some (.refl _))
              | _ =>
                  refine (comparison hp (n + 1)).holds_bind hfits fun fits fits' heq => ?_
                  subst heq
                  cases fits with
                  | true => exact (comparison hp (n + 1)).holds_pure .none
                  | false =>
                      exact (comparison hp (n + 1)).holds_pure (.some (.typeMismatch ..))

end Simulation

/-- Everything that the checks of a run can make a session remember, with the modules it is
remembered for. -/
def Program.memories (p : Program) (settings : Settings) : List (String × Memo) :=
  (p.modules.flatMap fun m => m.memos.map fun memo => (m.id, memo)) ++
    (p.checks settings).flatMap fun (target, setter) =>
      setter.value.memos.map fun memo => (target.module, memo)

def Program.MayRemember (p : Program) (settings : Settings) (home : String) (memo : Memo) : Prop :=
  (home, memo) ∈ p.memories settings

/-- What is needed for checks not to come in each other's way. -/
structure Program.Sharable (p : Program) (settings : Settings) : Prop where
  /-- No name of a declaration can be taken for a drawn one. -/
  clear : ∀ {home memo}, p.MayRemember settings home memo → memo.isClear = true
  /-- What is remembered in one place is the same thing. -/
  single : ∀ {home memo memo'}, p.MayRemember settings home memo →
    p.MayRemember settings home memo' → memo.slot = memo'.slot → memo.content = memo'.content
  /-- Every check comes to an end without memory. -/
  ends : ∀ {target setter}, (target, setter) ∈ p.checks settings → ∃ depth,
    (Check.ofSetter p (inferAlone p depth) settings target setter .new).isSome = true

/-- Nothing is pending in the session, and it remembers nothing but answers. -/
abbrev Session.Reliable (p : Program) (settings : Settings) (s : Session) : Prop :=
  s.Kept p (p.MayRemember settings) idle (Answered p (p.MayRemember settings))

namespace Program.Sharable

variable {p : Program} {settings : Settings} (h : p.Sharable settings)

include h

theorem unambiguous : Unambiguous p (p.MayRemember settings) where
  within := Program.within_of_modules fun _ hm _ hmemo => List.mem_append_left _
    (List.mem_flatMap.mpr ⟨_, hm, List.mem_map_of_mem hmemo⟩)
  clear := h.clear
  single := h.single

/-- In reliable sessions, the check of a setter finds what it finds without memory. -/
theorem ofSetter_alone {target : ResourceDef} {setter : Setter}
    (hsetter : (target, setter) ∈ p.checks settings) :
    ∃ alone : Except InferError (Option Finding), ∀ depth s r s', s.Reliable p settings →
      Check.ofSetter p (infer p depth) settings target setter s = some (r, s') →
      s'.Reliable p settings ∧
        ExceptRel Likeness.blanked.err (Option.Rel Finding.Alike) r alone := by
  obtain ⟨n, hends⟩ := h.ends hsetter
  obtain ⟨⟨alone, t⟩, halone⟩ := Option.isSome_iff_exists.mp hends
  refine ⟨alone, fun depth s r s' hs hr => ?_⟩
  have hmemos : ∀ memo ∈ setter.value.memos, p.MayRemember settings target.module memo :=
    fun memo hmemo => List.mem_append_right _
      (List.mem_flatMap.mpr ⟨_, hsetter, List.mem_map_of_mem hmemo⟩)
  obtain ⟨_, r', s'', hr', hs'', _, hlike⟩ := Simulation.ofSetter h.unambiguous n settings hmemos
    idle s .new alone t (fun _ _ _ hpending => hpending.elim) hs .new halone
  obtain ⟨rfl, rfl⟩ := Ends.unique (Check.ofSetter_monotone setter) ⟨depth, hr⟩ ⟨n, hr'⟩
  exact ⟨hs'', hlike⟩

omit h in
/-- It is enough that no two things are remembered in one place. -/
theorem of_distinct (depth : Nat)
    (hclear : ∀ memory ∈ p.memories settings, memory.2.isClear = true)
    (hdistinct : ((p.memories settings).map fun memory => (memory.1, memory.2.slot)).Nodup)
    (hends : ∀ check ∈ p.checks settings,
      (Check.ofSetter p (inferAlone p depth) settings check.1 check.2 .new).isSome = true) :
    p.Sharable settings where
  clear hmemo := hclear _ hmemo
  single hmemo hmemo' hslot := by
    have heq := List.inj_on_of_nodup_map hdistinct hmemo hmemo' (by rw [hslot])
    rw [(Prod.mk.inj heq).2]
  ends hcheck := ⟨depth, hends _ hcheck⟩

end Program.Sharable

/-- The findings of checks that do not come in each other's way are alike. -/
def Agreement.ofSharable {p : Program} {settings : Settings} (h : p.Sharable settings) :
    Agreement p settings where
  invariant s := s.Reliable p settings
  same := List.Forall₂ Finding.Alike
  new := .new
  enter id hs := hs.enter id
  sound hs := hs.sound
  refl report := List.forall₂_same.mpr fun f _ => .refl f
  append h h' := List.rel_append h h'
  setter := by
    intro target setter hsetter depth depth' s t r q s' t' hs ht hr hq
    obtain ⟨alone, halone⟩ := h.ofSetter_alone hsetter
    obtain ⟨hs', hlike⟩ := halone depth s r s' hs hr
    obtain ⟨ht', hlike'⟩ := halone depth' t q t' ht hq
    obtain ⟨found, rfl⟩ := Check.ofSetter_ok hr
    obtain ⟨found', rfl⟩ := Check.ofSetter_ok hq
    refine ⟨hs', ht', found, found', rfl, rfl, ?_⟩
    cases alone with
    | ok common => exact Finding.Alike.join_toList hlike hlike'
    | error _ => cases hlike

/-- A run and checks of the generators in sessions of their own find the same about declarations.
They find the same about values as well, up to wording, if the program is sharable. -/
theorem lint_sharing {p : Program} {settings : Settings} {depth depth' : Nat}
    {shared apart : Report} (hshared : p.lint depth settings = some shared)
    (hapart : p.lintApart depth' settings = some apart) :
    shared.aboutDeclarations = apart.aboutDeclarations ∧
      (p.Sharable settings → List.Forall₂ Finding.Alike shared apart) :=
  ⟨(Agreement.aboutDeclarations p settings).lint hshared hapart,
    fun h => (Agreement.ofSharable h).lint hshared hapart⟩

namespace Sharing

def plainName (name : String) : Expr :=
  ⟨.zero, .ident name none⟩

/-- `name: value` -/
def labelled (name : String) (value : Expr) : Expr :=
  ⟨.zero, .keyValue (plainName name) value⟩

/-- `func name() *schema.Resource`, for a resource with one field of the given type. -/
def generator (name reader field type : String) : FuncDecl where
  name := name
  receiver := none
  params := []
  results := [⟨[], ⟨.zero, .star ⟨.zero, .selector (plainName "schema") "Resource"⟩⟩, .zero⟩]
  body := [.ret [⟨.zero, .composite none [labelled "Read" (plainName reader),
    labelled "Schema" ⟨.zero, .composite none [⟨.zero, .keyValue ⟨.zero, .literal .string field⟩
      ⟨.zero, .composite none
        [labelled "Type" ⟨.zero, .selector (plainName "schema") type⟩]⟩⟩]⟩]⟩]]
  span := .zero

/-- `func name(d, meta any)`, which sets one field to each of the values, from the given line on. -/
def reader (name field : String) (line : Nat) (values : List Expr) : FuncDecl where
  name := name
  receiver := none
  params := [⟨["d", "meta"], plainName "any", .zero⟩]
  results := []
  body := values.mapIdx fun i value => .expr ⟨⟨0, line + i, 0, 0⟩, .call
    ⟨.zero, .selector (plainName "d") "Set"⟩ [⟨.zero, .literal .string field⟩, value]⟩
  span := .zero

/-- `x.member`, for a variable `x` of type `*type`. -/
def member (type name : String) : Expr :=
  ⟨.zero, .selector ⟨.zero, .ident "x" (some (.field
    ⟨["x"], ⟨.zero, .star (plainName type)⟩, .zero⟩))⟩ name⟩

def provider (types : List TypeDecl) (functions : List FuncDecl) : Program :=
  (Program.empty ["provider.go"]).add ⟨"provider", "provider",
    [⟨0, [⟨Settings.defaultSchemaPath, some "schema"⟩]⟩], functions, types, [], ∅⟩

/-- Two types with structs written in place, `type Client struct { Config struct{} }` and
`type Logger struct { Level struct{} }`. -/
def configs : Program :=
  provider
    [⟨"Client", ⟨.zero, .structType [⟨["Config"], ⟨⟨0, 1, 0, 0⟩, .structType []⟩, .zero⟩]⟩, .zero⟩,
      ⟨"Logger", ⟨.zero, .structType [⟨["Level"], ⟨⟨0, 2, 0, 0⟩, .structType []⟩, .zero⟩]⟩, .zero⟩]
    [generator "client" "readClient" "config" "TypeMap",
      generator "logger" "readLogger" "level" "TypeInt",
      reader "readClient" "config" 10 [member "Client" "Config"],
      reader "readLogger" "level" 20 [member "Logger" "Level", member "Client" "Config"]]

end Sharing

open Sharing

theorem configs_share : ∃ shared apart, configs.lint 9 .default = some shared ∧
    configs.lintApart 9 .default = some apart ∧ shared ≠ apart ∧
    List.Forall₂ Finding.Alike shared apart := by
  have hsharable : configs.Sharable .default :=
    .of_distinct 9 (by decide +kernel) (by decide +kernel) (by decide +kernel)
  obtain ⟨shared, apart, hshared, hapart, hne⟩ : ∃ shared apart,
      configs.lint 9 .default = some shared ∧ configs.lintApart 9 .default = some apart ∧
        shared ≠ apart :=
    ⟨[.typeMismatch ⟨"provider.go", 10⟩ "config" "provider.struct00000001" "map",
        .typeMismatch ⟨"provider.go", 20⟩ "level" "provider.struct00000002" "int",
        .typeMismatch ⟨"provider.go", 21⟩ "level" "provider.struct00000001" "int"],
      [.typeMismatch ⟨"provider.go", 10⟩ "config" "provider.struct00000001" "map",
        .typeMismatch ⟨"provider.go", 20⟩ "level" "provider.struct00000001" "int",
        .typeMismatch ⟨"provider.go", 21⟩ "level" "provider.struct00000002" "int"],
      by decide +kernel, by decide +kernel, by decide⟩
  exact ⟨shared, apart, hshared, hapart, hne, (lint_sharing hshared hapart).2 hsharable⟩

namespace Sharing

/-- `type Client struct { *Logger; Name string }` and `type Logger struct { *Client }` -/
def clientAndLogger : Program :=
  provider
    [⟨"Client", ⟨.zero, .structType [⟨[], ⟨.zero, .star (plainName "Logger")⟩, .zero⟩,
        ⟨["Name"], plainName "string", .zero⟩]⟩, .zero⟩,
      ⟨"Logger", ⟨.zero, .structType [⟨[], ⟨.zero, .star (plainName "Client")⟩, .zero⟩]⟩, .zero⟩]
    [generator "client" "readClient" "name" "TypeString",
      generator "logger" "readLogger" "name" "TypeString",
      reader "readClient" "name" 10 [member "Client" "Name"],
      reader "readLogger" "name" 20 [member "Logger" "Name"]]

/-- `item("")`, for a local declaration `type item type`. -/
def item (type : String) : Expr :=
  ⟨.zero, .call ⟨.zero, .ident "item" (some (.type ⟨"item", plainName type, .zero⟩))⟩
    [⟨.zero, .literal .string ""⟩]⟩

def items : Program :=
  provider []
    [generator "text" "readText" "name" "TypeString",
      generator "number" "readNumber" "count" "TypeInt",
      reader "readText" "name" 10 [item "string"],
      reader "readNumber" "count" 20 [item "int"]]

/-- `type Client struct { Config struct{}; Name string }` and `type struct00000001 string` -/
def takenName : Program :=
  provider
    [⟨"Client", ⟨.zero, .structType [⟨["Config"], ⟨⟨0, 1, 0, 0⟩, .structType []⟩, .zero⟩,
        ⟨["Name"], plainName "string", .zero⟩]⟩, .zero⟩,
      ⟨"struct00000001", plainName "string", .zero⟩]
    [generator "client" "readClient" "name" "TypeString",
      generator "taken" "readTaken" "name" "TypeString",
      reader "readClient" "name" 10 [member "Client" "Name"],
      reader "readTaken" "name" 20
        [⟨.zero, .call (plainName "struct00000001") [⟨.zero, .literal .string ""⟩]⟩]]

end Sharing

/-- What a run finds can differ from what is found apart when types embed each other, when local
types have one name, and when a declaration has a name that is drawn. -/
theorem sharing_can_differ :
    (clientAndLogger.lint 9 .default =
        some [.unresolved ⟨"provider.go", 20⟩ "name" (.missingMethod "Name" "Logger")] ∧
      clientAndLogger.lintApart 9 .default = some []) ∧
    (items.lint 9 .default =
        some [.typeMismatch ⟨"provider.go", 20⟩ "count" "provider.item" "int"] ∧
      items.lintApart 9 .default = some []) ∧
    (takenName.lint 9 .default =
        some [.typeMismatch ⟨"provider.go", 20⟩ "name" "provider.struct00000001" "string"] ∧
      takenName.lintApart 9 .default = some []) := by
  decide +kernel

end ResourceLint
