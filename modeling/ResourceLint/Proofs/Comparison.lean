import ResourceLint.Proofs.Correspondence

/-!
# Comparing inferences

A `Comparison` is a correspondence within one program in which every module may be entered and
types may have any name. What the tables of modules and the pieces of syntax lead to is described
by what an inference can come to remember (`known`). Only what reads and writes the memory of a
session is left to each comparison (`Memory`), because there the two sides may go different ways.
-/

namespace ResourceLint

open Inference InferM

structure Comparison (p : Program) where
  like : Likeness
  lawful : like.Lawful
  word : ∀ name, like.word name
  /-- What inferences in a module may come to remember. -/
  known : String → Memo → Prop
  /-- The tables of declarations that a module may have. -/
  declared : String → Symbols → Prop
  within : ∀ {home symbols}, declared home symbols → symbols.Within (known home)
  /-- The property, for inferences whose answers are related in a given way. -/
  holds : {α β : Type} → (α → β → Prop) → InferM α → InferM β → Prop
  holds_pure : ∀ {α β : Type} {R : α → β → Prop} {a : α} {b : β}, R a b →
    holds R (pure a) (pure b)
  holds_fail : ∀ {α β : Type} {R : α → β → Prop} {e e' : InferError}, like.err e e' →
    holds R (fail e) (fail e')
  holds_bind : ∀ {α β γ δ : Type} {R : α → β → Prop} {S : γ → δ → Prop} {x : InferM α}
    {y : InferM β} {f : α → InferM γ} {g : β → InferM δ}, holds R x y →
    (∀ a b, R a b → holds S (f a) (g b)) → holds S (x >>= f) (y >>= g)
  holds_scope : ∀ home, holds (fun a b : Scope => a.symbols = b.symbols ∧ like.owner home ∧
    declared home a.symbols) (scope p home) (scope p home)

namespace Comparison

variable {p : Program} (c : Comparison p) {ask ask' : Ask} {home : String}

def toCorrespondence : Correspondence p p where
  like := c.like
  lawful := c.lawful
  enters _ := True
  enters_owner _ := trivial
  enters_split _ _ := trivial
  agrees := .refl p
  declared := c.declared
  holds := c.holds
  holds_pure := c.holds_pure
  holds_fail := c.holds_fail
  holds_bind := c.holds_bind
  holds_scope _ := c.holds_scope _

/-- Alike questions have related answers. -/
def Asks (ask ask' : Ask) : Prop :=
  ∀ x home, c.like.owner home → (∀ memo ∈ x.memos, c.known home memo) →
    c.holds (Ty.Like c.like) (ask x home) (ask' x home)

/-- The property goes through looking at a failure. -/
def Tolerant : Prop :=
  c.toCorrespondence.Tolerant

theorem holds_mono {α β : Type} {R S : α → β → Prop} {x : InferM α} {y : InferM β}
    (h : c.holds R x y) (hRS : ∀ a b, R a b → S a b) : c.holds S x y :=
  c.toCorrespondence.holds_mono h hRS

theorem holds_fail_same {α β : Type} {R : α → β → Prop} (e : InferError)
    (he : e.isUnknownStruct = false) : c.holds R (fail e) (fail e) :=
  c.toCorrespondence.holds_fail_same e he

/-- Questions that lead to nothing else than what may be remembered. -/
theorem Asks.of_memos {c : Comparison p} (asks : c.Asks ask ask') (hhome : c.like.owner home)
    {memos : List Memo} (hmemos : ∀ memo ∈ memos, c.known home memo) {questions : List Subject}
    (h : ∀ y ∈ questions, y.memos ⊆ memos) :
    c.toCorrespondence.Asks ask ask' home questions :=
  fun y hy => asks y home hhome fun memo hmemo => hmemos memo (h y hy hmemo)

theorem Asks.types {c : Comparison p} (asks : c.Asks ask ask') :
    c.toCorrespondence.Types ask ask' := fun howner hdeclared hd =>
  asks _ _ howner ((c.within hdeclared).types hd)

theorem declaredFields (asks : c.Asks ask ask')
    (unknown : ∀ name home, c.like.err (.unknownStruct name home) (.unknownStruct name home))
    (name home : String) :
    c.holds (Table.Rel (Ty.Like c.like)) (declaredFields p ask name home)
      (Inference.declaredFields p ask' name home) :=
  c.toCorrespondence.declaredFields asks.types unknown (c.word name) trivial

/-- Asking for the fields of a type that may have none. -/
def Fields (ask ask' : Ask) : Prop :=
  ∀ name home, c.holds (Table.Rel (Ty.Like c.like)) (declaredFieldsIfAny p ask name home)
    (declaredFieldsIfAny p ask' name home)

theorem fieldsIfAny (asks : c.Asks ask ask') (tolerant : c.Tolerant)
    (unknown : ∀ name home, c.like.err (.unknownStruct name home) (.unknownStruct name home)) :
    c.Fields ask ask' := fun name _ =>
  c.toCorrespondence.fieldsIfAny asks.types tolerant unknown (c.word name) trivial

/-- Working out something that is then remembered. -/
theorem build (asks : c.Asks ask ask') (fields : c.Fields ask ask') (hhome : c.like.owner home)
    (tolerant : c.Tolerant) {n m : String} (hname : c.like.name n m) {memo : Memo}
    (hmemo : ∀ part ∈ memo.parts, c.known home part) :
    c.holds (Ty.Like c.like) (memo.build p ask home n) (memo.build p ask' home m) :=
  c.toCorrespondence.build (fun _ _ => fields _ _) tolerant hhome hname (fun _ => c.word n)
    (fun w _ => c.word w) (asks.of_memos hhome hmemo fun _ => Memo.memos_of_question)

/-- What is left to a comparison: how the property goes through the inferences that remember, and
through looking up the methods of types whose names differ. -/
structure Memory (ask ask' : Ask) : Prop where
  memo : ∀ {memo : Memo} {home : String}, c.like.owner home → memo.isNamed = true →
    (∀ part ∈ memo.parts, c.known home part) →
    c.holds (Ty.Like c.like) (memo.infer p ask home) (memo.infer p ask' home)
  namedSignature : ∀ {key home : String} {symbols : Symbols}, c.declared home symbols →
    symbols.functions.contains key = true →
    c.holds (Signature.Like c.like) (namedSignature p ask key home)
      (namedSignature p ask' key home)
  fields : c.Fields ask ask'
  unequal : ∀ {n m : String} (method home : String), c.like.name n m → n ≠ m →
    c.holds (Signature.Like c.like) (methodSignature p ask method n home)
      (methodSignature p ask' method m home)

theorem declaredSignature {f : FuncDecl} {home : String}
    (h : (Memo.function f).isNamed = true → c.holds (Ty.Like c.like)
      ((Memo.function f).infer p ask home) ((Memo.function f).infer p ask' home)) :
    c.holds (Signature.Like c.like) (declaredSignature p ask f home)
      (Inference.declaredSignature p ask' f home) :=
  c.toCorrespondence.declaredSignature h

theorem Memory.members {c : Comparison p} (memory : c.Memory ask ask') :
    c.toCorrespondence.Members ask ask' where
  fields _ _ := memory.fields _ _
  signatures := memory.namedSignature
  unequal := memory.unequal

theorem Memory.names {c : Comparison p} (memory : c.Memory ask ask') (asks : c.Asks ask ask') :
    c.toCorrespondence.Names ask ask' where
  toMembers := memory.members
  types := asks.types
  values howner hdeclared hv :=
    asks.of_memos howner ((c.within hdeclared).values hv) fun _ => ValueSpec.memos_of_question

section Members

variable (memory : c.Memory ask ask')

include memory

theorem methodSignature {n m : String} (method home : String) (hname : c.like.name n m) :
    c.holds (Signature.Like c.like) (methodSignature p ask method n home)
      (Inference.methodSignature p ask' method m home) :=
  c.toCorrespondence.methodSignature memory.members method hname (c.word n) trivial

theorem typeOfMember {t u : Ty} (h : Ty.Like c.like t u) (member home : String) :
    c.holds (Ty.Like c.like) (typeOfMember p ask t member home)
      (Inference.typeOfMember p ask' u member home) :=
  c.toCorrespondence.typeOfMember memory.members h member trivial

end Members

section Names

variable (asks : c.Asks ask ask') (memory : c.Memory ask ask')

include asks memory

theorem topLevelType (name home : String) :
    c.holds (Ty.Like c.like) (topLevelType p ask name home)
      (Inference.topLevelType p ask' name home) :=
  c.toCorrespondence.topLevelType (memory.names asks) (c.word name) trivial

theorem localType (name home : String) :
    c.holds (Ty.Like c.like) (localType p ask name home)
      (Inference.localType p ask' name home) :=
  c.toCorrespondence.localType (memory.names asks) name trivial

end Names

theorem exprType (asks : c.Asks ask ask') (hhome : c.like.owner home)
    (memory : c.Memory ask ask') {e : Expr} (he : ∀ memo ∈ e.memos, c.known home memo) :
    c.holds (Ty.Like c.like) (exprType p ask e home) (Inference.exprType p ask' e home) := by
  refine c.toCorrespondence.exprType (memory.names asks) hhome (fun w _ => c.word w)
    (asks.of_memos hhome he fun _ => Expr.memos_of_question) fun memo hmemo hnamed => ?_
  exact memory.memo hhome hnamed fun part hpart => he part (Expr.parts_of_remembers hmemo hpart)

theorem fits (tolerant : c.Tolerant) {t u : Ty} (h : Ty.Like c.like t u)
    (hlocal : ∀ owner, t.owner? = some owner → c.holds (Ty.Like c.like)
      (Inference.localType p ask t.name owner) (Inference.localType p ask' u.name owner))
    (expected : Expectation) (overrides : Overrides) :
    c.holds Eq (Inference.fits p ask t expected overrides)
      (Inference.fits p ask' u expected overrides) :=
  c.toCorrespondence.fits tolerant h hlocal expected overrides

end Comparison

end ResourceLint
