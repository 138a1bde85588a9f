import Mathlib.Logic.Relation
import ResourceLint.Proofs.Change

/-!
# Runs of inferences

A session serves any number of inferences, one after the other. An operation is completed when it
has come to an end, with an answer or with a failure; a run is a sequence of completed operations.
Every run is a change of the session.
-/

namespace ResourceLint

/-- What can be asked within a session. -/
inductive Operation where
  | typeOf (e : Expr) (home : String)
  | declaredType (d : TypeDecl) (home : String)
  | topLevelType (name home : String)
  | localType (name home : String)
  | declaredSignature (f : FuncDecl) (home : String)
  | namedSignature (name home : String)
  | methodSignature (method receiver home : String)
  | typeOfMember (t : Ty) (member home : String)
  | declaredFields (name home : String)
  | fits (t : Ty) (expected : Expectation) (overrides : Overrides)
  | scope (home : String)

namespace Operation

/-- The operation comes to an end. -/
def Completes (p : Program) (s s' : Session) : Operation → Prop
  | .typeOf e home => ∃ r, Ends (p.typeOf · e home) s r s'
  | .declaredType d home => ∃ r, Ends (p.declaredType · d home) s r s'
  | .topLevelType name home => ∃ r, Ends (p.topLevelType · name home) s r s'
  | .localType name home => ∃ r, Ends (p.localType · name home) s r s'
  | .declaredSignature f home => ∃ r, Ends (p.declaredSignature · f home) s r s'
  | .namedSignature name home => ∃ r, Ends (p.namedSignature · name home) s r s'
  | .methodSignature method receiver home =>
      ∃ r, Ends (p.methodSignature · method receiver home) s r s'
  | .typeOfMember t member home => ∃ r, Ends (p.typeOfMember · t member home) s r s'
  | .declaredFields name home => ∃ r, Ends (p.declaredFields · name home) s r s'
  | .fits t expected overrides => ∃ r, Ends (p.fits · t expected overrides) s r s'
  | .scope home => ∃ r, s.enter p home = (r, s')

/-- The operation is about nothing but what is allowed to be remembered. -/
def Within (known : String → Memo → Prop) : Operation → Prop
  | .typeOf e home => ∀ memo ∈ e.memos, known home memo
  | .declaredType d home => ∀ memo ∈ d.memos, known home memo
  | .declaredSignature f home => ∀ memo ∈ f.memos, known home memo
  | _ => True

theorem within_all (op : Operation) : op.Within fun _ _ => True := by
  cases op <;> first | exact fun _ _ => trivial | trivial

variable {p : Program} {known : String → Memo → Prop} {s s' : Session}

theorem change {op : Operation} (hp : p.Within known) (hop : op.Within known)
    (hs : s.Within known) (h : op.Completes p s s') : Change p known s s' := by
  have asks := Change.asks_infer hp
  have memory := fun depth => Change.memory hp (asks depth)
  cases op with
  | typeOf e home =>
      obtain ⟨r, depth, h⟩ := h
      exact (asks depth (.expr e) home trivial hop s r s' hs h).1
  | declaredType d home =>
      obtain ⟨r, depth, h⟩ := h
      exact (asks depth (.decl d) home trivial hop s r s' hs h).1
  | topLevelType name home =>
      obtain ⟨r, depth, h⟩ := h
      exact ((Change.comparison hp).topLevelType (asks depth) (memory depth) name home s r s' hs
        h).1
  | localType name home =>
      obtain ⟨r, depth, h⟩ := h
      exact ((Change.comparison hp).localType (asks depth) (memory depth) name home s r s' hs h).1
  | declaredSignature f home =>
      obtain ⟨r, depth, h⟩ := h
      exact ((Change.comparison hp).declaredSignature (fun hnamed =>
        Change.memo hp (asks depth) (.function f) hnamed hop) s r s' hs h).1
  | namedSignature name home =>
      obtain ⟨r, depth, h⟩ := h
      exact (Change.namedSignature hp (asks depth) name s r s' hs h).1
  | methodSignature method receiver home =>
      obtain ⟨r, depth, h⟩ := h
      exact ((Change.comparison hp).methodSignature (memory depth) method home rfl s r s' hs h).1
  | typeOfMember t member home =>
      obtain ⟨r, depth, h⟩ := h
      have ht : Ty.Like (Change.comparison hp).like t t := (Ty.like_exact_iff t t).mpr rfl
      exact ((Change.comparison hp).typeOfMember (memory depth) ht member home s r s' hs h).1
  | declaredFields name home =>
      obtain ⟨r, depth, h⟩ := h
      exact Change.declaredFields hp (asks depth) hs h
  | fits t expected overrides =>
      obtain ⟨r, depth, h⟩ := h
      have ht : Ty.Like (Change.comparison hp).like t t := (Ty.like_exact_iff t t).mpr rfl
      exact ((Change.comparison hp).fits (Change.tolerant hp) ht (fun owner _ =>
        (Change.comparison hp).localType (asks depth) (memory depth) t.name owner) expected
        overrides s r s' hs h).1
  | scope home =>
      obtain ⟨r, h⟩ := h
      exact Change.of_enter h

end Operation

/-- Completed operations, one after the other. -/
def Run (p : Program) (known : String → Memo → Prop) : Session → Session → Prop :=
  Relation.ReflTransGen fun s s' => ∃ op : Operation, op.Within known ∧ op.Completes p s s'

variable {p : Program} {known : String → Memo → Prop} {s s' : Session}

theorem Run.change (hp : p.Within known) (hs : s.Sound p) (h : Run p known s s') :
    Change p known s s' := by
  induction h with
  | refl => exact .refl s
  | tail _ hstep ih =>
      obtain ⟨op, hop, h⟩ := hstep
      exact ih.trans (op.change hp hop ((ih.sound hs).within hp) h)

theorem Run.sound (hp : p.Within known) (h : Run p known .new s) : s.Sound p :=
  (h.change hp Session.sound_new).sound Session.sound_new

end ResourceLint
