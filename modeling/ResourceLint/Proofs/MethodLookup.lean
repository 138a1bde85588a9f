import Mathlib.Data.List.Find
import ResourceLint.Proofs.Origin
import ResourceLint.Proofs.QualifiedNames
import ResourceLint.Proofs.Renaming
import ResourceLint.Proofs.Words

/-!
# Looking up methods

Methods are kept under `Receiver.Name`. As long as names are not empty and have no dots, such a key
tells the receiver and the method, so a method is found exactly if it has been declared with that
receiver, and whatever is remembered under its key has that receiver. A method is looked for on the
receiver and then on the types that it embeds, in the order of their declaration
(`methodSignature_lookup`).
-/

namespace ResourceLint

open Inference InferM

namespace QualifiedName

/-- A name as it is written in a program: not empty, and without dots. -/
def isWord (name : String) : Bool :=
  !name.isEmpty && !name.toList.contains '.'

theorem isWord_iff {name : String} :
    isWord name = true ↔ name.isEmpty = false ∧ '.' ∉ name.toList := by
  simp [isWord]

variable {owner method : String}

theorem qualify_of_isWord (howner : isWord owner = true) (hmethod : isWord method = true) :
    qualify owner method = owner ++ "." ++ method :=
  qualify_of_notMem (isWord_iff.mp howner).1 (isWord_iff.mp hmethod).2

/-- The key of a method tells its receiver and its name. -/
theorem method_eq_iff (howner : isWord owner = true) (hmethod : isWord method = true)
    {receiver : Option String} {name : String} (hname : isWord name = true) :
    QualifiedName.method receiver name = owner ++ "." ++ method ↔
      receiver = some owner ∧ name = method := by
  have hundotted := (isWord_iff.mp hname).2
  have hdot : name ≠ owner ++ "." ++ method := by
    rintro rfl
    exact hundotted (by simp)
  constructor
  · intro h
    cases receiver with
    | none => exact absurd h hdot
    | some receiver =>
        rw [QualifiedName.method, qualify, isQualified_of_notMem hundotted] at h
        cases hempty : receiver.isEmpty with
        | true =>
            rw [hempty] at h
            exact absurd h hdot
        | false =>
            rw [hempty] at h
            have hparts := (Text.append_mark_inj hundotted (isWord_iff.mp hmethod).2).mp h
            exact hparts.imp_left (congrArg some)
  · rintro ⟨rfl, rfl⟩
    exact qualify_of_isWord howner hmethod

end QualifiedName

open QualifiedName

/-- All names in it are words. -/
abbrev worded : String → Memo → Prop :=
  fun _ memo => ∀ w ∈ memo.words, isWord w = true

/-- A group of fields embeds a type as `T` or `*T`. -/
inductive FieldGroup.Embeds : FieldGroup → String → Prop
  | plain (name : String) (binding : Option Binding) (inner span : Span) :
      Embeds ⟨[], ⟨inner, .ident name binding⟩, span⟩ name
  | pointer (name : String) (binding : Option Binding) (inner outer span : Span) :
      Embeds ⟨[], ⟨outer, .star ⟨inner, .ident name binding⟩⟩, span⟩ name

theorem FieldGroup.Embeds.mem_words {g : FieldGroup} {name : String} (h : g.Embeds name) :
    name ∈ g.words := by
  cases h <;> simp [FieldGroup.words, Expr.words, Node.words]

/-- The types that groups of fields embed as `T` or `*T`, in order. -/
inductive FieldGroup.EmbedInTurn : List FieldGroup → List String → Prop
  | nil : EmbedInTurn [] []
  | embed {g : FieldGroup} {rest : List FieldGroup} {name : String} {names : List String}
      (h : g.Embeds name) (hrest : EmbedInTurn rest names) : EmbedInTurn (g :: rest) (name :: names)
  | skip {g : FieldGroup} {rest : List FieldGroup} {names : List String}
      (h : ∀ name, ¬ g.Embeds name) (hrest : EmbedInTurn rest names) : EmbedInTurn (g :: rest) names

/-- The declaration of a type. Of several declarations of one name the last one counts. -/
def Module.lastType? (m : Module) (name : String) : Option TypeDecl :=
  m.types.reverse.find? fun d => d.name = name

/-- The types that a type of the module embeds directly as `T` or `*T`, in order of declaration. A
type that is not declared as a struct embeds none. -/
inductive Module.Embeds (m : Module) (type : String) : List String → Prop
  | struct {inner span : Span} {groups : List FieldGroup} {names : List String}
      (hdecl : m.lastType? type = some ⟨type, ⟨inner, .structType groups⟩, span⟩)
      (hnames : FieldGroup.EmbedInTurn groups names) : Embeds m type names
  | other (h : ∀ inner groups span,
      m.lastType? type ≠ some ⟨type, ⟨inner, .structType groups⟩, span⟩) : Embeds m type []

theorem Module.embeds_struct_iff {m : Module} {type : String} {names : List String}
    {inner span : Span} {groups : List FieldGroup}
    (h : m.lastType? type = some ⟨type, ⟨inner, .structType groups⟩, span⟩) :
    m.Embeds type names ↔ FieldGroup.EmbedInTurn groups names := by
  constructor
  · rintro (⟨hdecl, hnames⟩ | hother)
    · cases h.symm.trans hdecl
      exact hnames
    · exact absurd h (hother inner groups span)
  · exact .struct h

theorem Module.embeds_other_iff {m : Module} {type : String} {names : List String}
    (h : ∀ inner groups span, m.lastType? type ≠ some ⟨type, ⟨inner, .structType groups⟩, span⟩) :
    m.Embeds type names ↔ names = [] := by
  constructor
  · rintro (⟨hdecl, _⟩ | _)
    · exact absurd hdecl (h _ _ _)
    · rfl
  · rintro rfl
    exact .other h

/-- The module declares a method of that name for that receiver. -/
def Module.hasMethod (m : Module) (receiver name : String) : Bool :=
  m.functions.any fun f => f.receiverType? = some (some receiver) ∧ f.name = name

variable {p : Program} {ask : Ask} {s s' : Session} {home : String} {m : Module} {symbols : Symbols}
  {receiver method owner : String}

namespace Symbols

/-- A function of the module is found by its key. -/
theorem contains_function (h : ofModule m = .ok symbols) (key : String) :
    symbols.functions.contains key = m.functions.any fun f => f.key = key := by
  rw [functions_eq h, Table.contains_ofList, List.any_map]
  rfl

/-- The last declaration of a type is the one in the table. -/
theorem types_find? (h : ofModule m = .ok symbols) (name : String) :
    symbols.types.find? name = m.lastType? name := by
  rw [(ofModule_eq_ok_iff.mp h).2.1, Table.find?_ofList, Module.lastType?, ← List.map_reverse]
  induction m.types.reverse with
  | nil => rfl
  | cons d rest ih =>
      rw [List.map_cons, Table.lookup_entry, List.find?_cons, ih]
      by_cases hname : d.name = name
      · simp [hname]
      · simp [hname, Ne.symm hname]

theorem embeds_iff {g : FieldGroup} {name : String} :
    g.Embeds name ↔ (if g.isUnnamed then embeddedName? g else none) = some name := by
  constructor
  · rintro (_ | _) <;> rfl
  · obtain ⟨names, ⟨span, node⟩, tag⟩ := g
    intro h
    cases names with
    | cons => cases h
    | nil =>
        cases node with
        | ident n binding =>
            cases h
            exact .plain ..
        | star x =>
            obtain ⟨inner, node⟩ := x
            cases node with
            | ident n binding =>
                cases h
                exact .pointer ..
            | _ => cases h
        | _ => cases h

theorem embedInTurn_iff {groups : List FieldGroup} {names : List String} :
    FieldGroup.EmbedInTurn groups names ↔
      names = (groups.filter FieldGroup.isUnnamed).filterMap embeddedName? := by
  rw [List.filterMap_filter]
  induction groups generalizing names with
  | nil =>
      constructor
      · rintro ⟨⟩
        rfl
      · rintro rfl
        exact .nil
  | cons g rest ih =>
      rw [List.filterMap_cons]
      cases hname : (if g.isUnnamed then embeddedName? g else none) with
      | none =>
          refine Iff.trans ⟨?_, ?_⟩ ih
          · rintro (_ | ⟨h, _⟩ | ⟨_, hrest⟩)
            · cases hname.symm.trans (embeds_iff.mp h)
            · exact hrest
          · exact .skip fun name h => by cases hname.symm.trans (embeds_iff.mp h)
      | some name =>
          constructor
          · rintro (_ | ⟨h, hrest⟩ | ⟨h, _⟩)
            · cases hname.symm.trans (embeds_iff.mp h)
              rw [ih.mp hrest]
            · exact absurd (embeds_iff.mpr hname) (h name)
          · rintro rfl
            exact .embed (embeds_iff.mpr hname) (ih.mpr rfl)

/-- The table of types tells what a type embeds. -/
theorem embeddedNames_iff (h : ofModule m = .ok symbols) {type : String} {names : List String} :
    m.Embeds type names ↔ names = symbols.embeddedNames type := by
  rw [embeddedNames, types_find? h]
  cases hd : m.lastType? type with
  | none => exact Module.embeds_other_iff fun _ _ _ hdecl => by cases hd.symm.trans hdecl
  | some d =>
      obtain ⟨own, ⟨inner, node⟩, span⟩ := d
      obtain rfl : own = type := by simpa using List.find?_some hd
      cases node with
      | structType groups => exact (Module.embeds_struct_iff hd).trans embedInTurn_iff
      | _ => exact Module.embeds_other_iff fun _ _ _ hdecl => by cases hd.symm.trans hdecl

/-- The names of the types that a struct embeds stand in its declaration. -/
theorem embeddedNames_subset {d : TypeDecl} {name : String}
    (h : symbols.types.find? name = some d) : symbols.embeddedNames name ⊆ d.words := by
  intro w hw
  obtain ⟨own, ⟨span, node⟩, declared⟩ := d
  simp only [embeddedNames, h, Option.bind_some] at hw
  cases node with
  | structType groups =>
      simp only [TypeDecl.structGroups?, List.mem_filterMap, List.mem_filter] at hw
      obtain ⟨g, ⟨hg, hunnamed⟩, hname⟩ := hw
      have hembeds : g.Embeds w := embeds_iff.mpr (by rw [if_pos hunnamed, hname])
      rw [TypeDecl.words, Expr.words, Node.words, FieldGroup.wordsAll_eq]
      exact List.mem_cons_of_mem _ (List.mem_flatMap_of_mem hg hembeds.mem_words)
  | _ => cases hw

end Symbols

section MethodTables

variable (hp : p.Within worded) (hm : p.module? home = some m)

include hp hm

theorem isWord_of_type {d : TypeDecl} (hd : d ∈ m.types) {w : String} (hw : w ∈ d.words) :
    isWord w = true := by
  refine hp home m hm (.type d) ?_ w hw
  simp only [Module.memos, List.mem_append, List.mem_flatMap]
  exact .inl (.inl ⟨d, hd, (Memo.type d).mem_parts⟩)

theorem isWord_of_function {f : FuncDecl} (hf : f ∈ m.functions) : isWord f.name = true := by
  refine hp home m hm (.function f) ?_ f.name (by simp [Memo.words, FuncDecl.words_eq])
  simp only [Module.memos, List.mem_append, List.mem_flatMap]
  exact .inl (.inr ⟨f, hf, (Memo.function f).mem_parts⟩)

variable (hsymbols : Symbols.ofModule m = .ok symbols)

include hsymbols

theorem isWord_of_owner (hreceiver : isWord receiver = true)
    (howner : owner ∈ methodOwners symbols receiver) : isWord owner = true := by
  rcases List.mem_cons.mp howner with rfl | howner
  · exact hreceiver
  · cases hd : symbols.types.find? receiver with
    | none => simp [Symbols.embeddedNames, hd] at howner
    | some d =>
        exact isWord_of_type hp hm (Symbols.type_of_find? hsymbols hd).1
          (Symbols.embeddedNames_subset hd howner)

theorem owner_of_find? (hreceiver : isWord receiver = true)
    (h : (methodOwners symbols receiver).find? (m.hasMethod · method) = some owner) :
    isWord owner = true ∧ m.hasMethod owner method = true :=
  ⟨isWord_of_owner hp hm hsymbols hreceiver (List.mem_of_find?_eq_some h),
    by simpa only using List.find?_some h⟩

/-- A method is in the table of the module under the key for a receiver if it has been declared for
that receiver. -/
theorem contains_method (howner : isWord owner = true) (hmethod : isWord method = true) :
    symbols.functions.contains (owner ++ "." ++ method) = m.hasMethod owner method := by
  rw [Symbols.contains_function hsymbols, Module.hasMethod, Bool.eq_iff_iff]
  simp only [List.any_eq_true, decide_eq_true_eq]
  refine exists_congr fun f => and_congr_right fun hf => ?_
  rw [FuncDecl.key, method_eq_iff howner hmethod (isWord_of_function hp hm hf),
    Option.join_eq_some_iff]

theorem exists_method (howner : isWord owner = true) (hmethod : isWord method = true)
    (h : m.hasMethod owner method = true) :
    ∃ f, symbols.functions.find? (owner ++ "." ++ method) = some f ∧ f ∈ m.functions ∧
      f.receiverType? = some (some owner) ∧ f.name = method := by
  rw [← contains_method hp hm hsymbols howner hmethod] at h
  obtain ⟨f, hf⟩ := Option.isSome_iff_exists.mp h
  obtain ⟨hmem, receiver, hreceiver, hkey⟩ := Symbols.function_of_find? hsymbols hf
  obtain ⟨rfl, hname⟩ :=
    (method_eq_iff howner hmethod (isWord_of_function hp hm hmem)).mp hkey
  exact ⟨f, hf, hmem, hreceiver, hname⟩

theorem find?_methodOwners (hreceiver : isWord receiver = true) (hmethod : isWord method = true) :
    (methodOwners symbols receiver).find? (fun owner =>
        symbols.functions.contains (QualifiedName.method (some owner) method)) =
      (methodOwners symbols receiver).find? (m.hasMethod · method) := by
  refine List.find?_congr fun owner howner => ?_
  have howner := isWord_of_owner hp hm hsymbols hreceiver howner
  rw [QualifiedName.method, qualify_of_isWord howner hmethod,
    contains_method hp hm hsymbols howner hmethod]

end MethodTables

/-- Whatever is remembered under the key of a method has the receiver that the key tells. -/
theorem Run.receiver_eq (hp : p.Within worded) (hrun : Run p worded .new s) {sc : Scope}
    (hsc : s.scopes.find? home = some sc) (howner : isWord owner = true)
    (hmethod : isWord method = true) {sig : Signature}
    (h : sc.signatures.find? (owner ++ "." ++ method) = some sig) : sig.receiver = some owner := by
  have hentry : sc.entry .func (owner ++ "." ++ method) = some (.func sig) := by
    rw [Scope.entry, h, Option.map_some]
  obtain ⟨memo, hmemo, horigin⟩ := hrun.origin hp hsc hentry
  cases memo with
  | function f =>
      have hname : isWord f.name = true := hmemo f.name (by simp [Memo.words, FuncDecl.words_eq])
      have hkey : f.key = owner ++ "." ++ method := horigin.admits.symm
      obtain ⟨ask, s₁, s₂, hmakes⟩ := horigin.makes
      rw [Memo.build, map_apply] at hmakes
      obtain ⟨⟨_ | _, _⟩, hsig, heq⟩ := Option.map_eq_some_iff.mp hmakes <;> cases heq
      rw [(signature_ok hsig).2.2]
      exact ((method_eq_iff howner hmethod hname).mp hkey).1
  | func span params results =>
      -- Names that are drawn have no dots.
      have hdrawn : looksDrawn (owner ++ "." ++ method) = true :=
        (Bool.or_eq_true _ _).mpr (.inr horigin.admits)
      exact absurd (by simp) (notMem_of_looksDrawn hdrawn)
  | type d => cases horigin.kind
  | struct span fields => cases horigin.kind

/-- The signature of a function that the module declares is remembered under its key. -/
theorem Run.namedSignature_ok {known : String → Memo → Prop} (hp : p.Within known)
    (hrun : Run p known .new s) (hsymbols : p.symbols home = .ok symbols) {key : String}
    {f : FuncDecl} (hf : symbols.functions.find? key = some f) {depth : Nat} {sig : Signature}
    (h : p.namedSignature depth key home s = some (.ok sig, s')) :
    ∃ sc, s'.scopes.find? home = some sc ∧ sc.signatures.find? key = some sig := by
  obtain ⟨m, _, hm⟩ := Program.symbols_eq_ok hsymbols
  obtain ⟨_, receiver, hreceiver, hkey⟩ := Symbols.function_of_find? hm hf
  have hkey : f.key = key := (f.key_of_receiver hreceiver).trans hkey
  rw [Program.namedSignature, namedSignature_eq (hrun.sound hp) hsymbols hf] at h
  have hinfer : (Memo.function f).infer p (infer p depth) home s = some (.ok (.func sig), s') := by
    rw [Memo.infer, map_apply, h]
    rfl
  obtain ⟨sc, hsc, hentry⟩ := Change.leaves hp (Change.asks_infer hp depth) (.function f)
    (by rw [Memo.isNamed, hreceiver]; rfl) ((hp.symbols hsymbols).functions hf)
    ((hrun.sound hp).within hp) hinfer
  have hentry : sc.entry .func f.key = some (.func sig) := hentry
  rw [hkey, Scope.entry] at hentry
  obtain ⟨_, hsig, heq⟩ := Option.map_eq_some_iff.mp hentry
  cases heq
  exact ⟨sc, hsc, hsig⟩

section Embedded

variable (hp : p.Within worded) (hs : s.Sound p) (hm : p.module? home = some m)
  (hsymbols : Symbols.ofModule m = .ok symbols) (hreceiver : isWord receiver = true)
  (hmethod : isWord method = true)

include hp hs hm hsymbols hreceiver hmethod

theorem methodSignature_of_none
    (h : (methodOwners symbols receiver).find? (m.hasMethod · method) = none) :
    methodSignature p ask method receiver home s =
      some (.error (.missingMethod method receiver), (s.enter p home).2) := by
  obtain ⟨sc, s₁, henter, rfl⟩ := hs.exists_enter ((p.symbols_of_module? hm).trans hsymbols)
  simp only [methodSignature, split_of_notMem (isWord_iff.mp hreceiver).2]
  rw [scope_bind_ok henter, find?_methodOwners hp hm hsymbols hreceiver hmethod, h, henter]
  rfl

theorem methodSignature_of_owner
    (h : (methodOwners symbols receiver).find? (m.hasMethod · method) = some owner) :
    methodSignature p ask method receiver home s =
      ((fun sig => { sig with receiver := some owner }) <$>
        namedSignature p ask (owner ++ "." ++ method) home) s := by
  obtain ⟨sc, s₁, henter, rfl⟩ := hs.exists_enter ((p.symbols_of_module? hm).trans hsymbols)
  obtain ⟨howner, _⟩ := owner_of_find? hp hm hsymbols hreceiver h
  simp only [methodSignature, split_of_notMem (isWord_iff.mp hreceiver).2]
  rw [scope_bind_ok henter, find?_methodOwners hp hm hsymbols hreceiver hmethod, h]
  simp only [QualifiedName.method, qualify_of_isWord howner hmethod, map_eq_pure_bind,
    namedSignature, bind_assoc]
  rw [scope_bind_ok henter, scope_bind_ok (Session.entered_of_enter henter).enter_eq]

end Embedded

section Lookup

variable (hp : p.Within worded) (hrun : Run p worded .new s) (hm : p.module? home = some m)
  (hsymbols : Symbols.ofModule m = .ok symbols)

include hp hrun hm hsymbols

/-- The signature of a method has the receiver that the method is declared for, and is remembered
under its key. -/
theorem Run.method_ok (howner : isWord owner = true) (hmethod : isWord method = true)
    (hhas : m.hasMethod owner method = true) {depth : Nat} {sig : Signature}
    (h : p.namedSignature depth (owner ++ "." ++ method) home s = some (.ok sig, s')) :
    sig.receiver = some owner ∧ ∃ sc, s'.scopes.find? home = some sc ∧
      sc.signatures.find? (owner ++ "." ++ method) = some sig := by
  obtain ⟨f, hf, _⟩ := exists_method hp hm hsymbols howner hmethod hhas
  have hrun' : Run p worded .new s' :=
    hrun.tail ⟨.namedSignature (owner ++ "." ++ method) home, trivial, _, depth, h⟩
  obtain ⟨sc, hsc, hsig⟩ :=
    hrun.namedSignature_ok hp ((p.symbols_of_module? hm).trans hsymbols) hf h
  exact ⟨hrun'.receiver_eq hp hsc howner hmethod hsig, sc, hsc, hsig⟩

/-- A method is found under the key for its owner. The signature there has the owner for a receiver
already, so putting it in changes nothing. -/
theorem Run.methodSignature_eq (hreceiver : isWord receiver = true)
    (hmethod : isWord method = true)
    (h : (methodOwners symbols receiver).find? (m.hasMethod · method) = some owner) (depth : Nat) :
    p.methodSignature depth method receiver home s =
      p.namedSignature depth (owner ++ "." ++ method) home s := by
  obtain ⟨howner, hhas⟩ := owner_of_find? hp hm hsymbols hreceiver h
  rw [Program.methodSignature, methodSignature_of_owner hp (hrun.sound hp) hm hsymbols hreceiver
    hmethod h, map_apply, ← Program.namedSignature]
  rcases hnamed : p.namedSignature depth (owner ++ "." ++ method) home s with _ | ⟨e | sig, s'⟩
  · rfl
  · rfl
  · obtain ⟨hsig, _⟩ := hrun.method_ok hp hm hsymbols howner hmethod hhas hnamed
    cases sig
    cases hsig
    rfl

end Lookup

/-- `func (receiver) name() result` -/
def methodDecl (receiver name result : String) : FuncDecl :=
  ⟨name, some ⟨none, ⟨.zero, .ident receiver none⟩⟩, [],
    [⟨[], ⟨.zero, .ident result none⟩, .zero⟩], [], .zero⟩

/-- `type Fleet struct { Spare Zone; Base; *Zone }` -/
def fleetDecl : TypeDecl :=
  ⟨"Fleet", ⟨.zero, .structType [⟨["Spare"], ⟨.zero, .ident "Zone" none⟩, .zero⟩,
    ⟨[], ⟨.zero, .ident "Base" none⟩, .zero⟩,
    ⟨[], ⟨.zero, .star ⟨.zero, .ident "Zone" none⟩⟩, .zero⟩]⟩, .zero⟩

/-- `Base` and `Zone`, which `Fleet` embeds in this order, both have a method `Ping`. A field that
has a name comes before them and is no embedded type. -/
def fleetModule : Module :=
  ⟨"m", "m", [], [methodDecl "Zone" "Ping" "int", methodDecl "Base" "Ping" "bool",
    methodDecl "Zone" "Stop" "string"], [baseDecl, zoneDecl, fleetDecl], [], ∅⟩

def fleet : Program :=
  (Program.empty []).add fleetModule

end ResourceLint
