import ResourceLint.Inference
import ResourceLint.Proofs.Question
import ResourceLint.Proofs.Recall

/-!
# Corresponding inferences

A `Correspondence` relates inferences in two programs by some property of what they do to sessions,
and says how the property goes through single steps: answers, failures, one inference after
another, and looking at a scope. Then it goes through everything that inference is put together
from. Each step is left with what it asks about: its questions, what it remembers by itself, and
what it finds by name (`Names`), because there the two sides may go different ways.

The two programs only have to agree on the modules that can be entered from modules that types may
belong to.
-/

namespace ResourceLint

open Inference InferM

namespace Program

variable (p : Program) {e : InferError}

theorem require_error {id : String} (h : p.require id = .error e) : e.isUnknownStruct = false := by
  unfold require at h
  split at h <;> cases h
  rfl

theorem reach_error {m : Module} {name : String} (h : p.reach m name = .error e) :
    e.isUnknownStruct = false := by
  unfold reach at h
  dsimp only at h
  split at h <;> cases h
  rfl

theorem qualifierTarget_error {qualifier : String} {file : Nat} {m : Module}
    (h : p.qualifierTarget qualifier file m = .error e) : e.isUnknownStruct = false := by
  unfold qualifierTarget at h
  split at h
  · cases h
  · split at h
    · cases h
    · split at h <;> cases h
      rfl

/-- Both programs have the same modules under the ids that may be entered, and imports lead from
them to the same modules, which may be entered too. -/
structure AgreesOn (enters : String → Prop) (p p' : Program) : Prop where
  module? : ∀ {id}, enters id → p.module? id = p'.module? id
  target : ∀ {id m}, enters id → p.module? id = some m → ∀ qualifier file,
    p.qualifierTarget qualifier file m = p'.qualifierTarget qualifier file m
  reach : ∀ {id m qualifier file path}, enters id → p.module? id = some m →
    p.qualifierTarget qualifier file m = .ok path → p.reach m path = p'.reach m path
  reached : ∀ {id m qualifier file path target}, enters id → p.module? id = some m →
    p.qualifierTarget qualifier file m = .ok path → p.reach m path = .ok target →
    enters target.id

theorem AgreesOn.refl (p : Program) : p.AgreesOn (fun _ => True) p where
  module? _ := rfl
  target _ _ _ _ := rfl
  reach _ _ _ := rfl
  reached _ _ _ _ := trivial

theorem AgreesOn.require {enters : String → Prop} {p p' : Program} (h : p.AgreesOn enters p')
    {id : String} (hid : enters id) : p.require id = p'.require id := by
  rw [Program.require, Program.require, h.module? hid]

theorem module?_of_require {id : String} {m : Module} (h : p.require id = .ok m) :
    p.module? id = some m := by
  unfold require at h
  split at h
  · next heq =>
      cases h
      exact heq
  · cases h

end Program

structure Correspondence (p p' : Program) where
  like : Likeness
  lawful : like.Lawful
  /-- The modules that may be entered. -/
  enters : String → Prop
  enters_owner : ∀ {home}, like.owner home → enters home
  enters_split : ∀ {name home}, like.word name → enters home →
    enters (QualifiedName.split name home).2
  agrees : p.AgreesOn enters p'
  /-- The tables of declarations that a module may have. -/
  declared : String → Symbols → Prop
  /-- The property, for inferences whose answers are related in a given way. -/
  holds : {α β : Type} → (α → β → Prop) → InferM α → InferM β → Prop
  holds_pure : ∀ {α β : Type} {R : α → β → Prop} {a : α} {b : β}, R a b →
    holds R (pure a) (pure b)
  holds_fail : ∀ {α β : Type} {R : α → β → Prop} {e e' : InferError}, like.err e e' →
    holds R (fail e) (fail e')
  holds_bind : ∀ {α β γ δ : Type} {R : α → β → Prop} {S : γ → δ → Prop} {x : InferM α}
    {y : InferM β} {f : α → InferM γ} {g : β → InferM δ}, holds R x y →
    (∀ a b, R a b → holds S (f a) (g b)) → holds S (x >>= f) (y >>= g)
  holds_scope : ∀ {home}, enters home → holds (fun a b : Scope => a.symbols = b.symbols ∧
    like.owner home ∧ declared home a.symbols) (scope p home) (scope p' home)

namespace Correspondence

variable {p p' : Program} (c : Correspondence p p') {ask ask' : Ask}

/-- All these questions have related answers. -/
def Asks (ask ask' : Ask) (home : String) (questions : List Subject) : Prop :=
  ∀ x ∈ questions, c.holds (Ty.Like c.like) (ask x home) (ask' x home)

/-- The property goes through looking at a failure. -/
def Tolerant : Prop :=
  ∀ {α β : Type} {R : α → β → Prop} {x : InferM α} {y : InferM β}, c.holds R x y →
    c.holds (ExceptRel c.like.err R) (attempt x) (attempt y)

theorem holds_mono {α β : Type} {R S : α → β → Prop} {x : InferM α} {y : InferM β}
    (h : c.holds R x y) (hRS : ∀ a b, R a b → S a b) : c.holds S x y := by
  have := c.holds_bind h fun a b hab => c.holds_pure (hRS a b hab)
  simpa only [bind_pure] using this

theorem holds_fail_same {α β : Type} {R : α → β → Prop} (e : InferError)
    (he : e.isUnknownStruct = false) : c.holds R (fail e) (fail e) :=
  c.holds_fail (c.lawful.err_refl e he)

theorem holds_map {α β γ δ : Type} {R : α → β → Prop} {S : γ → δ → Prop} {x : InferM α}
    {y : InferM β} {f : α → γ} {g : β → δ} (h : c.holds R x y)
    (hfg : ∀ a b, R a b → S (f a) (g b)) : c.holds S (f <$> x) (g <$> y) := by
  rw [map_eq_pure_bind, map_eq_pure_bind]
  exact c.holds_bind h fun a b hab => c.holds_pure (hfg a b hab)

/-- The signature of a function type. -/
def signatureOf : Ty → InferM Signature
  | .func sig => pure sig
  | _ => fail (.notCallable "")

/-- Functions with alike types have alike signatures. -/
theorem holds_of_func {x y : InferM Signature}
    (h : c.holds (Ty.Like c.like) (.func <$> x) (.func <$> y)) :
    c.holds (Signature.Like c.like) x y := by
  have hback : ∀ z : InferM Signature, (.func <$> z) >>= signatureOf = z := by
    intro z
    rw [map_eq_pure_bind, bind_assoc]
    simp only [pure_bind, signatureOf]
    exact bind_pure z
  rw [← hback x, ← hback y]
  refine c.holds_bind h fun t u htu => ?_
  cases htu.form with
  | func hfg => exact c.holds_pure hfg
  | _ => exact c.holds_fail_same _ rfl

theorem holds_ofExcept {α β : Type} {R : α → β → Prop} {r : Except InferError α}
    {r' : Except InferError β} (h : ExceptRel c.like.err R r r') :
    c.holds R (ofExcept r) (ofExcept r') := by
  cases r with
  | ok a =>
      cases r' with
      | ok b => exact c.holds_pure h
      | error e' => cases h
  | error e =>
      cases r' with
      | ok b => cases h
      | error e' => exact c.holds_fail h

theorem holds_ofExcept_same {α : Type} {r : Except InferError α}
    (hr : ∀ e, r = .error e → e.isUnknownStruct = false) :
    c.holds (fun a b => a = b ∧ r = .ok a) (ofExcept r) (ofExcept r) := by
  cases r with
  | ok a => exact c.holds_pure ⟨rfl, rfl⟩
  | error e => exact c.holds_fail_same e (hr e rfl)

section Signatures

theorem paramType (tolerant : c.Tolerant) {home : String} {g : FieldGroup}
    (h : c.holds (Ty.Like c.like) (ask (.expr g.type) home) (ask' (.expr g.type) home)) :
    c.holds (Ty.Like c.like) (paramType ask home g) (Inference.paramType ask' home g) := by
  unfold Inference.paramType
  refine c.holds_bind (tolerant h) fun a b hab => ?_
  cases a with
  | ok t =>
      cases b with
      | ok u => exact c.holds_pure hab
      | error _ => cases hab
  | error _ =>
      cases b with
      | ok _ => cases hab
      | error _ => exact c.holds_pure (Ty.like_iff.mpr .stub)

theorem flatten {typeOf typeOf' : FieldGroup → InferM Ty} {groups : List FieldGroup}
    (h : ∀ g ∈ groups, c.holds (Ty.Like c.like) (typeOf g) (typeOf' g)) :
    c.holds (List.Forall₂ (Ty.Like c.like)) (flatten typeOf groups)
      (Inference.flatten typeOf' groups) := by
  induction groups with
  | nil => exact c.holds_pure .nil
  | cons g rest ih =>
      simp only [Inference.flatten]
      refine c.holds_bind (h g List.mem_cons_self) fun t u htu => ?_
      refine c.holds_bind (ih fun g hg => h g (List.mem_cons_of_mem _ hg)) fun ts us hts => ?_
      refine c.holds_pure (List.rel_append ?_ hts)
      induction g.arity with
      | zero => exact .nil
      | succ n ih => exact .cons htu ih

theorem signature (tolerant : c.Tolerant) {home n m : String} {receiver : Option String}
    {params results : List FieldGroup} (hhome : c.like.owner home) (hname : c.like.name n m)
    (asks : c.Asks ask ask' home (FieldGroup.questions (params ++ results))) :
    c.holds (Signature.Like c.like) (signature ask n home receiver params results)
      (Inference.signature ask' m home receiver params results) := by
  have hgroup : ∀ g ∈ params ++ results,
      c.holds (Ty.Like c.like) (ask (.expr g.type) home) (ask' (.expr g.type) home) :=
    fun g hg => asks _ (List.mem_map_of_mem hg)
  unfold Inference.signature
  refine c.holds_bind (c.flatten fun g hg => c.paramType tolerant
    (hgroup g (List.mem_append_left _ hg))) fun args args' hargs => ?_
  refine c.holds_bind (c.flatten fun g hg => hgroup g (List.mem_append_right _ hg))
    fun rs rs' hrs => ?_
  exact c.holds_pure (Signature.like_iff.mpr ⟨hname, rfl, hhome,
    c.lawful.receiver_refl receiver, hargs, hrs⟩)

end Signatures

section Fields

/-- Asking for the types that modules declare. -/
def Types (ask ask' : Ask) : Prop :=
  ∀ {home symbols name d}, c.like.owner home → c.declared home symbols →
    symbols.types.find? name = some d →
    c.holds (Ty.Like c.like) (ask (.decl d) home) (ask' (.decl d) home)

theorem declaredFields (types : c.Types ask ask')
    (unknown : ∀ name home, c.like.err (.unknownStruct name home) (.unknownStruct name home))
    {name home : String} (hname : c.like.word name) (hhome : c.enters home) :
    c.holds (Table.Rel (Ty.Like c.like)) (declaredFields p ask name home)
      (Inference.declaredFields p' ask' name home) := by
  have henters := c.enters_split hname hhome
  unfold Inference.declaredFields
  generalize QualifiedName.split name home = parts at henters
  obtain ⟨name, home⟩ := parts
  refine c.holds_bind (c.holds_scope henters) fun a b ⟨hab, howner, hdeclared⟩ => ?_
  rw [← hab]
  cases hd : a.symbols.structDecl? name with
  | none => exact c.holds_fail (unknown name home)
  | some d =>
      have hask := types howner hdeclared (Option.filter_eq_some_iff.mp hd).1
      refine c.holds_bind hask fun t u htu => ?_
      have hform := htu.unwrap
      generalize t.unwrap = t', u.unwrap = u' at hform
      cases hform.form with
      | struct _ _ hf => exact c.holds_pure hf
      | _ => exact c.holds_pure Table.rel_empty

/-- Asking for the fields of a type that may have none. -/
def Fields (ask ask' : Ask) : Prop :=
  ∀ {name home}, c.like.word name → c.enters home →
    c.holds (Table.Rel (Ty.Like c.like)) (declaredFieldsIfAny p ask name home)
      (declaredFieldsIfAny p' ask' name home)

theorem fieldsIfAny (types : c.Types ask ask') (tolerant : c.Tolerant)
    (unknown : ∀ name home, c.like.err (.unknownStruct name home) (.unknownStruct name home)) :
    c.Fields ask ask' := by
  intro name home hname hhome
  unfold declaredFieldsIfAny
  refine c.holds_bind (tolerant (c.declaredFields types unknown hname hhome)) fun a b hab => ?_
  cases a with
  | ok fields =>
      cases b with
      | ok fields' => exact c.holds_pure hab
      | error _ => cases hab
  | error e =>
      cases b with
      | ok _ => cases hab
      | error e' =>
          have herr : e.isUnknownStruct = e'.isUnknownStruct := c.lawful.err_isUnknownStruct hab
          cases e <;> cases e' <;> first
            | exact c.holds_pure Table.rel_empty
            | exact c.holds_fail hab
            | cases herr

/-- How the property goes through what the members of types are found by: their fields, the
functions of modules, and the methods of types whose names differ. -/
structure Members (ask ask' : Ask) : Prop where
  fields : c.Fields ask ask'
  signatures : ∀ {home symbols key}, c.declared home symbols →
    symbols.functions.contains key = true →
    c.holds (Signature.Like c.like) (namedSignature p ask key home)
      (namedSignature p' ask' key home)
  unequal : ∀ {n m : String} (method home : String), c.like.name n m → n ≠ m →
    c.holds (Signature.Like c.like) (methodSignature p ask method n home)
      (methodSignature p' ask' method m home)

/-- How it goes through everything that is found by name. -/
structure Names (ask ask' : Ask) : Prop extends c.Members ask ask' where
  types : c.Types ask ask'
  values : ∀ {home symbols name spec}, c.like.owner home → c.declared home symbols →
    symbols.values.find? name = some spec → c.Asks ask ask' home spec.questions

theorem declaredSignature {f : FuncDecl} {home : String}
    (h : (Memo.function f).isNamed = true → c.holds (Ty.Like c.like)
      ((Memo.function f).infer p ask home) ((Memo.function f).infer p' ask' home)) :
    c.holds (Signature.Like c.like) (declaredSignature p ask f home)
      (Inference.declaredSignature p' ask' f home) := by
  cases hreceiver : f.receiverType? with
  | none =>
      simp only [Inference.declaredSignature, hreceiver]
      exact c.holds_fail_same _ rfl
  | some receiver => exact c.holds_of_func (h (by simp [Memo.isNamed, hreceiver]))

theorem promotedFields (fields : c.Fields ask ask') {t u : Ty} (h : Ty.Like c.like t u) :
    c.holds (Table.Rel (Ty.Like c.like)) (promotedFields p ask t)
      (Inference.promotedFields p' ask' u) := by
  have hform := h.unwrap
  unfold Inference.promotedFields
  generalize t.unwrap = t', u.unwrap = u' at hform
  cases hform.form with
  | struct _ _ hf => exact c.holds_pure hf
  | @simple s hs =>
      obtain ⟨name, owner⟩ := s
      cases owner with
      | none => exact c.holds_pure Table.rel_empty
      | some owner =>
          exact fields (c.lawful.simple_word hs) (c.enters_owner (c.lawful.simple_owner hs rfl))
  | _ => exact c.holds_pure Table.rel_empty

/-- Alike fields, both those declared here and those promoted. -/
def LayersLike (a b : FieldLayers) : Prop :=
  Table.Rel (Ty.Like c.like) a.own b.own ∧ Table.Rel (Ty.Like c.like) a.promoted b.promoted

section Layers

variable {home : String} (fields : c.Fields ask ask')

include fields

theorem addGroup {a b : FieldLayers} (hab : c.LayersLike a b) {g : FieldGroup}
    (h : c.holds (Ty.Like c.like) (ask (.expr g.type) home) (ask' (.expr g.type) home)) :
    c.holds c.LayersLike (addGroup p ask home a g) (Inference.addGroup p' ask' home b g) := by
  unfold Inference.addGroup
  refine c.holds_bind h fun t u htu => ?_
  by_cases hunnamed : g.isUnnamed = true
  · simp only [hunnamed, if_true]
    cases g.type.typeName? with
    | none => exact c.holds_pure hab
    | some name =>
        refine c.holds_bind (c.promotedFields fields htu) fun fs gs hfg => ?_
        exact c.holds_pure ⟨hab.1.insert _ htu, hab.2.orElse hfg⟩
  · simp only [hunnamed]
    exact c.holds_pure ⟨hab.1.insertAll _ htu, hab.2⟩

theorem addGroups {a b : FieldLayers} (hab : c.LayersLike a b) {groups : List FieldGroup}
    (asks : c.Asks ask ask' home (FieldGroup.questions groups)) :
    c.holds c.LayersLike (addGroups p ask home a groups)
      (Inference.addGroups p' ask' home b groups) := by
  induction groups generalizing a b with
  | nil => exact c.holds_pure hab
  | cons g rest ih =>
      simp only [Inference.addGroups]
      refine c.holds_bind (c.addGroup fields hab (asks _ List.mem_cons_self)) fun a b hab => ?_
      exact ih hab fun y hy => asks y (List.mem_cons_of_mem _ hy)

theorem fieldTable {groups : List FieldGroup}
    (asks : c.Asks ask ask' home (FieldGroup.questions groups)) :
    c.holds (Table.Rel (Ty.Like c.like)) (fieldTable p ask groups home)
      (Inference.fieldTable p' ask' groups home) := by
  unfold Inference.fieldTable
  refine c.holds_bind (c.addGroups fields ⟨Table.rel_empty, Table.rel_empty⟩ asks)
    fun a b hab => ?_
  exact c.holds_pure (hab.1.orElse hab.2)

theorem declaredBody (hhome : c.like.owner home) {d : TypeDecl} (hname : c.like.word d.name)
    (asks : c.Asks ask ask' home (Memo.type d).questions) :
    c.holds (Ty.Like c.like) (declaredBody p ask d home)
      (Inference.declaredBody p' ask' d home) := by
  unfold Inference.declaredBody
  cases hgroups : d.structGroups? with
  | none =>
      simp only [Memo.questions, hgroups] at asks
      exact asks _ (List.mem_singleton_self _)
  | some groups =>
      simp only [Memo.questions, hgroups] at asks
      refine c.holds_bind (c.fieldTable fields asks) fun fs gs hfg => ?_
      exact c.holds_pure (Ty.like_iff.mpr (.struct (c.lawful.name_refl _)
        (c.lawful.reference hname hhome) hfg))

/-- Working out something that is then remembered. -/
theorem build (tolerant : c.Tolerant) (hhome : c.like.owner home) {n m : String}
    (hname : c.like.name n m) {memo : Memo} (hword : memo.slot.kind = .struct → c.like.word n)
    (hown : ∀ w ∈ memo.ownNames, c.like.word w) (asks : c.Asks ask ask' home memo.questions) :
    c.holds (Ty.Like c.like) (memo.build p ask home n) (memo.build p' ask' home m) := by
  cases memo with
  | type d =>
      have hd : c.like.word d.name := hown _ (List.mem_singleton_self _)
      refine c.holds_map (c.declaredBody fields hhome hd asks) fun t u htu => ?_
      exact Ty.like_iff.mpr (.wrapper (c.lawful.reference hd hhome) htu)
  | function f =>
      refine c.holds_map (c.signature tolerant hhome (c.lawful.name_refl _) asks)
        fun g g' hg => ?_
      exact Ty.like_iff.mpr (.func hg)
  | struct span groups =>
      refine c.holds_map (c.fieldTable fields asks) fun fs gs hfg => ?_
      exact Ty.like_iff.mpr (.struct hname (c.lawful.reference (hword rfl) hhome) hfg)
  | func span params results =>
      refine c.holds_map (c.signature tolerant hhome hname asks) fun g g' hg => ?_
      exact Ty.like_iff.mpr (.func hg)

end Layers

end Fields

section Members

variable (members : c.Members ask ask')

include members

theorem methodSignature {n m home : String} (method : String) (hname : c.like.name n m)
    (hword : c.like.word n) (hhome : c.enters home) :
    c.holds (Signature.Like c.like) (methodSignature p ask method n home)
      (Inference.methodSignature p' ask' method m home) := by
  by_cases hnm : n = m
  · subst hnm
    have henters := c.enters_split hword hhome
    unfold Inference.methodSignature
    generalize QualifiedName.split n home = parts at henters
    obtain ⟨receiver, home⟩ := parts
    refine c.holds_bind (c.holds_scope henters) fun a b ⟨hab, _, hdeclared⟩ => ?_
    rw [← hab]
    dsimp only
    cases howner : (methodOwners a.symbols receiver).find? _ with
    | none => exact c.holds_fail_same _ rfl
    | some owner =>
        have hcontains : a.symbols.functions.contains
            (QualifiedName.method (some owner) method) = true :=
          (List.find?_eq_some_iff_append.mp howner).1
        refine c.holds_bind (members.signatures hdeclared hcontains) fun f g hfg => ?_
        obtain ⟨hn, ho, hown, _, hargs, hresults⟩ := Signature.like_iff.mp hfg
        exact c.holds_pure (Signature.like_iff.mpr
          ⟨hn, ho, hown, c.lawful.receiver_refl _, hargs, hresults⟩)
  · exact members.unequal method home hname hnm

theorem fieldOrMethod {fs gs : Table Ty} (hfg : Table.Rel (Ty.Like c.like) fs gs)
    {n m owner : String} (member : String) (hname : c.like.name n m) (hword : c.like.word n)
    (howner : c.enters owner) :
    c.holds (Ty.Like c.like) (fieldOrMethod p ask fs member n owner)
      (Inference.fieldOrMethod p' ask' gs member m owner) := by
  have hmember := hfg.find? member
  unfold Inference.fieldOrMethod
  generalize fs.find? member = a, gs.find? member = b at hmember
  cases hmember with
  | some htu => exact c.holds_pure htu
  | none =>
      refine c.holds_bind (c.methodSignature members member hname hword howner) fun f g hfg => ?_
      exact c.holds_pure (Ty.like_iff.mpr (.func hfg))

theorem typeOfMember {t u : Ty} (h : Ty.Like c.like t u) (member : String) {home : String}
    (hhome : c.enters home) :
    c.holds (Ty.Like c.like) (typeOfMember p ask t member home)
      (Inference.typeOfMember p' ask' u member home) := by
  have herr := c.lawful.err_type (k := .noMembers) (fun _ => rfl) h
  have henters : ∀ {n o}, c.like.simple ⟨n, some o⟩ → c.enters o := fun hs =>
    c.enters_owner (c.lawful.simple_owner hs rfl)
  cases h.form with
  | array _ => exact c.holds_fail_same _ rfl
  | struct hn hs hf =>
      exact c.fieldOrMethod members hf member hn (c.lawful.simple_word hs) (henters hs)
  | @wrapper n o t u hs hw =>
      have hform := hw.unwrap
      have hn := c.lawful.name_refl n
      have hword : c.like.word n := c.lawful.simple_word hs
      simp only [Inference.typeOfMember]
      generalize t.unwrap = t', u.unwrap = u' at hform
      cases hform.form with
      | struct _ _ hf => exact c.fieldOrMethod members hf member hn hword (henters hs)
      | _ => exact c.fieldOrMethod members Table.rel_empty member hn hword (henters hs)
  | @simple s hs =>
      obtain ⟨name, owner⟩ := s
      have hword : c.like.word name := c.lawful.simple_word hs
      have howner : c.enters (owner.getD home) := by
        cases owner with
        | none => exact hhome
        | some owner => exact henters hs
      refine c.holds_bind (members.fields hword howner) fun fs gs hfg => ?_
      exact c.fieldOrMethod members hfg member (c.lawful.name_refl name) hword howner
  | _ => exact c.holds_fail herr

end Members

section Calls

variable {home : String}

theorem predeclaredResult (name : String) {args : List Expr}
    (asks : c.Asks ask ask' home (args.map .expr)) :
    c.holds (Ty.Like c.like) (predeclaredResult ask name args home)
      (Inference.predeclaredResult ask' name args home) := by
  have hint : Ty.Like c.like (.predeclared "int") (.predeclared "int") :=
    c.lawful.like_basic (by decide)
  have hfloat : Ty.Like c.like (.predeclared "float") (.predeclared "float") :=
    c.lawful.like_basic (by decide)
  unfold Inference.predeclaredResult
  cases args with
  | nil =>
      split <;> first
        | exact c.holds_pure hint
        | exact c.holds_pure hfloat
        | exact c.holds_pure (Ty.like_iff.mpr .stub)
  | cons arg rest =>
      have harg := asks (.expr arg) List.mem_cons_self
      split <;> first
        | exact harg
        | exact c.holds_pure hint
        | exact c.holds_pure hfloat
        | exact c.holds_pure (Ty.like_iff.mpr .stub)

theorem calledSignature (hhome : c.like.owner home) {fn : Expr} {args : List Expr}
    (asks : c.Asks ask ask' home (.expr fn :: args.map .expr)) :
    c.holds (Signature.Like c.like) (calledSignature ask fn args home)
      (Inference.calledSignature ask' fn args home) := by
  unfold Inference.calledSignature
  cases predeclaredCallee? fn with
  | some name =>
      refine c.holds_bind (c.predeclaredResult name fun y hy => asks y (List.mem_cons_of_mem _ hy))
        fun t u htu => ?_
      exact c.holds_pure (c.lawful.conversion name hhome htu)
  | none =>
      refine c.holds_bind (asks (.expr fn) List.mem_cons_self) fun t u htu => ?_
      exact c.holds_ofExcept (c.lawful.calleeSignature hhome htu)

theorem assignedType (hhome : c.like.owner home) (name : String) (position : Nat)
    {values : List Expr} (asks : c.Asks ask ask' home (values.flatMap Expr.valueQuestions)) :
    c.holds (Ty.Like c.like) (assignedType ask name position values home)
      (Inference.assignedType ask' name position values home) := by
  unfold Inference.assignedType
  split
  · next value =>
      have hvalue : c.Asks ask ask' home value.valueQuestions := fun y hy =>
        asks y (List.mem_flatMap_of_mem (List.mem_singleton_self value) hy)
      split
      · next fn args hnode =>
          obtain ⟨span, node⟩ := value
          cases hnode
          have hcall : c.Asks ask ask' home (.expr fn :: args.map .expr) := fun y hy =>
            hvalue y (List.mem_cons_of_mem _ hy)
          refine c.holds_bind (c.calledSignature hhome hcall) fun f g hfg => ?_
          exact c.holds_ofExcept (c.lawful.resultAt hfg position)
      · exact hvalue _ List.mem_cons_self
  · exact c.holds_fail_same _ rfl

/-- The type of something declared as a value: the one that is written, or else that of its
value. -/
theorem valueType (hhome : c.like.owner home) (name : String) (position : Nat) {spec : ValueSpec}
    (asks : c.Asks ask ask' home spec.questions) :
    (∀ type, spec.type = some type →
      c.holds (Ty.Like c.like) (ask (.expr type) home) (ask' (.expr type) home)) ∧
    c.holds (Ty.Like c.like) (Inference.assignedType ask name position spec.values home)
      (Inference.assignedType ask' name position spec.values home) := by
  constructor
  · intro type htype
    exact asks _ (List.mem_append_left _ (by simp [htype]))
  · exact c.assignedType hhome name position fun y hy => asks y (List.mem_append_right _ hy)

theorem boundType (hhome : c.like.owner home) (name : String) {binding : Binding}
    (asks : c.Asks ask ask' home binding.questions)
    (memos : ∀ f, binding = .func f → (Memo.function f).isNamed = true →
      c.holds (Ty.Like c.like) ((Memo.function f).infer p ask home)
        ((Memo.function f).infer p' ask' home)) :
    c.holds (Ty.Like c.like) (boundType p ask name home binding)
      (Inference.boundType p' ask' name home binding) := by
  cases binding with
  | assign stmt =>
      simp only [Inference.boundType]
      split
      · exact c.assignedType hhome name _ asks
      · exact c.holds_fail_same _ rfl
  | type d => exact asks _ (List.mem_singleton_self _)
  | field g => exact asks _ (List.mem_singleton_self _)
  | value spec =>
      have hvalue := fun position => c.valueType hhome name position asks
      simp only [Inference.boundType]
      cases htype : spec.type with
      | some type => exact (hvalue 0).1 type htype
      | none =>
          dsimp only
          split
          · exact (hvalue _).2
          · exact c.holds_fail_same _ rfl
  | func f =>
      refine c.holds_bind (c.declaredSignature (memos f rfl)) fun f g hfg => ?_
      exact c.holds_pure (Ty.like_iff.mpr (.func hfg))

end Calls

section Names

variable (names : c.Names ask ask') {home : String}

include names

theorem topLevelType {name : String} (hname : c.like.word name) (hhome : c.enters home) :
    c.holds (Ty.Like c.like) (topLevelType p ask name home)
      (Inference.topLevelType p' ask' name home) := by
  unfold Inference.topLevelType
  refine c.holds_bind (c.holds_scope hhome) fun a b ⟨hab, howner, hdeclared⟩ => ?_
  rw [← hab]
  dsimp only
  split
  · next hcontains =>
      refine c.holds_bind (names.signatures hdeclared hcontains) fun f g hfg => ?_
      exact c.holds_pure (Ty.like_iff.mpr (.func hfg))
  · cases hd : a.symbols.types.find? name with
    | some d => exact names.types howner hdeclared hd
    | none =>
        cases hv : a.symbols.values.find? name with
        | none => exact c.holds_pure (c.lawful.like_unboundType hname howner)
        | some spec =>
            have hvalue := fun position =>
              c.valueType howner name position (names.values howner hdeclared hv)
            dsimp only
            cases htype : spec.type with
            | some type => exact (hvalue 0).1 type htype
            | none => exact (hvalue _).2

theorem localType (name : String) (hhome : c.enters home) :
    c.holds (Ty.Like c.like) (localType p ask name home)
      (Inference.localType p' ask' name home) := by
  unfold Inference.localType
  refine c.holds_bind (c.holds_scope hhome) fun a b ⟨hab, howner, hdeclared⟩ => ?_
  rw [← hab]
  dsimp only
  cases hd : a.symbols.types.find? name with
  | some d => exact names.types howner hdeclared hd
  | none =>
      dsimp only
      split
      · next hcontains =>
          refine c.holds_bind (names.signatures hdeclared hcontains) fun f g hfg => ?_
          exact c.holds_pure (Ty.like_iff.mpr (.func hfg))
      · exact c.holds_fail_same _ rfl

theorem qualifiedType {qualifier sel : String} (file : Nat) (hqualifier : c.like.word qualifier)
    (hsel : c.like.word sel) (hhome : c.enters home) :
    c.holds (Ty.Like c.like) (qualifiedType p ask qualifier file sel home)
      (Inference.qualifiedType p' ask' qualifier file sel home) := by
  unfold Inference.qualifiedType
  rw [← c.agrees.require hhome]
  refine c.holds_bind (c.holds_ofExcept_same fun e => p.require_error) fun m m' hm => ?_
  obtain ⟨rfl, hrequire⟩ := hm
  have hm := p.module?_of_require hrequire
  rw [← c.agrees.target hhome hm]
  split
  · next path hpath =>
      rw [← c.agrees.reach hhome hm hpath]
      refine c.holds_bind (c.holds_ofExcept_same fun e => p.reach_error)
        fun target target' htarget => ?_
      obtain ⟨rfl, hreach⟩ := htarget
      exact c.topLevelType names hsel (c.agrees.reached hhome hm hpath hreach)
  · next e he =>
      refine c.holds_bind (c.holds_scope hhome) fun a b ⟨hab, _, _⟩ => ?_
      rw [← hab]
      split
      · refine c.holds_bind (c.topLevelType names hqualifier hhome) fun t u htu => ?_
        exact c.typeOfMember names.toMembers htu sel hhome
      · exact c.holds_fail_same e (p.qualifierTarget_error he)

theorem selectorType {x : Expr} {sel : String} (hhome : c.enters home)
    (hwords : ∀ w ∈ sel :: x.identName?.toList, c.like.word w)
    (hx : c.holds (Ty.Like c.like) (ask (.expr x) home) (ask' (.expr x) home)) :
    c.holds (Ty.Like c.like) (selectorType p ask x sel home)
      (Inference.selectorType p' ask' x sel home) := by
  have hsel := hwords sel List.mem_cons_self
  unfold Inference.selectorType
  split
  · next qualifier hnode =>
      have hqualifier : c.like.word qualifier :=
        hwords _ (List.mem_cons_of_mem _ (by simp [Expr.identName?, hnode]))
      exact c.qualifiedType names _ hqualifier hsel hhome
  · refine c.holds_bind hx fun t u htu => ?_
    exact c.typeOfMember names.toMembers htu sel hhome

end Names

section Expressions

theorem unaryType {home : String} (op : UnaryOp) {x : Expr}
    (hx : c.holds (Ty.Like c.like) (ask (.expr x) home) (ask' (.expr x) home)) :
    c.holds (Ty.Like c.like) (unaryType ask op x home)
      (Inference.unaryType ask' op x home) := by
  cases op with
  | not => exact c.holds_pure (c.lawful.like_basic (by decide))
  | range => exact c.holds_bind hx fun t u htu => c.holds_ofExcept (c.lawful.rangeType htu)
  | _ => exact hx

theorem exprType (names : c.Names ask ask') {home : String} (hhome : c.like.owner home) {e : Expr}
    (hwords : ∀ w ∈ e.ownNames, c.like.word w) (asks : c.Asks ask ask' home e.questions)
    (memos : ∀ memo ∈ e.remembers, memo.isNamed = true →
      c.holds (Ty.Like c.like) (memo.infer p ask home) (memo.infer p' ask' home)) :
    c.holds (Ty.Like c.like) (exprType p ask e home) (Inference.exprType p' ask' e home) := by
  obtain ⟨span, node⟩ := e
  have hone : ∀ x : Expr, Subject.expr x ∈ Expr.questions ⟨span, node⟩ →
      c.holds (Ty.Like c.like) (ask (.expr x) home) (ask' (.expr x) home) := fun x hx => asks _ hx
  cases node with
  | ident name binding =>
      cases binding with
      | none =>
          have hname := hwords name (List.mem_singleton_self name)
          exact c.holds_pure (c.lawful.like_unboundType hname hhome)
      | some binding =>
          refine c.boundType hhome name asks fun f hf hnamed => ?_
          subst hf
          exact memos _ (List.mem_singleton_self _) hnamed
  | literal kind text => exact c.holds_ofExcept (c.lawful.typeOfLiteral kind)
  | selector x sel =>
      exact c.selectorType names (c.enters_owner hhome) hwords (hone x (List.mem_singleton_self _))
  | call fn args =>
      refine c.holds_bind (c.calledSignature hhome asks) fun f g hfg => ?_
      exact c.holds_ofExcept (c.lawful.resultAt hfg 0)
  | index x i =>
      refine c.holds_bind (hone x (List.mem_singleton_self _)) fun t u htu => ?_
      exact c.holds_ofExcept (c.lawful.elementType htu)
  | slice x | star x | paren x => exact hone x (List.mem_singleton_self _)
  | unary op x => exact c.unaryType op (hone x (List.mem_singleton_self _))
  | binary op x y =>
      simp only [Inference.exprType]
      split
      · exact c.holds_pure (c.lawful.like_basic (by decide))
      · exact hone x (List.mem_singleton_self _)
  | typeAssert x type =>
      cases type with
      | none => exact hone x (List.mem_singleton_self _)
      | some type => exact hone type (List.mem_singleton_self _)
  | composite type elements =>
      cases type with
      | none => exact c.holds_pure (Ty.like_iff.mpr .stub)
      | some type => exact hone type (List.mem_singleton_self _)
  | funcLit params results body => exact memos _ (List.mem_singleton_self _) rfl
  | funcType params results => exact memos _ (List.mem_singleton_self _) rfl
  | arrayType elem =>
      refine c.holds_bind (hone elem (List.mem_singleton_self _)) fun t u htu => ?_
      exact c.holds_pure (Ty.like_iff.mpr (.array htu))
  | ellipsis elem =>
      cases elem with
      | none => exact c.holds_pure (Ty.like_iff.mpr .stub)
      | some elem =>
          refine c.holds_bind (hone elem (List.mem_singleton_self _)) fun t u htu => ?_
          exact c.holds_pure (Ty.like_iff.mpr (.array htu))
  | mapType key value =>
      refine c.holds_bind (hone value (List.mem_cons_of_mem _ (List.mem_singleton_self _)))
        fun t u htu => ?_
      refine c.holds_bind (hone key List.mem_cons_self) fun k k' hk => ?_
      exact c.holds_ofExcept (c.lawful.mkMap hk htu)
  | chanType dir value =>
      cases dir with
      | send => exact c.holds_fail_same _ rfl
      | recv => exact hone value (List.mem_singleton_self _)
      | both => exact hone value (List.mem_singleton_self _)
  | structType fields => exact memos _ (List.mem_singleton_self _) rfl
  | interfaceType => exact c.holds_pure (Ty.like_iff.mpr .interface)
  | keyValue key value => exact c.holds_pure (Ty.like_iff.mpr .stub)
  | bad => exact c.holds_pure (Ty.like_iff.mpr .stub)

end Expressions

theorem fits (tolerant : c.Tolerant) {t u : Ty} (h : Ty.Like c.like t u)
    (hlocal : ∀ owner, t.owner? = some owner → c.holds (Ty.Like c.like)
      (Inference.localType p ask t.name owner) (Inference.localType p' ask' u.name owner))
    (expected : Expectation) (overrides : Overrides) :
    c.holds Eq (Inference.fits p ask t expected overrides)
      (Inference.fits p' ask' u expected overrides) := by
  unfold Inference.fits
  refine c.holds_bind (c.holds_ofExcept (c.lawful.fits h expected overrides)) fun a b hab => ?_
  subst hab
  split
  · exact c.holds_pure rfl
  · rw [← h.owner?_eq]
    cases howner : t.owner? with
    | none => exact c.holds_pure rfl
    | some owner =>
        refine c.holds_bind (tolerant (hlocal owner howner)) fun a b hab => ?_
        cases a with
        | ok t' =>
            cases b with
            | ok u' => exact c.holds_ofExcept (c.lawful.fits hab expected overrides)
            | error _ => cases hab
        | error _ =>
            cases b with
            | ok _ => cases hab
            | error _ => exact c.holds_pure rfl

end Correspondence

end ResourceLint
