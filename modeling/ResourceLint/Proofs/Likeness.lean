import ResourceLint.Inference.Value
import ResourceLint.Ty.Match
import Mathlib.Data.List.Forall2

/-!
# Types that are alike

Two inferences of one thing need not give the same type: names drawn for types written in place
depend on what was drawn before. A `Likeness` says which names stand for each other and which
names, owners and references may occur at all; two types are alike when they agree in everything
else. Whatever inference does with a type, it does the same with a type that is like it.
-/

namespace ResourceLint

/-- Outcomes of the same kind with related contents. -/
def ExceptRel {ε α β : Type} (err : ε → ε → Prop) (R : α → β → Prop) :
    Except ε α → Except ε β → Prop
  | .ok a, .ok b => R a b
  | .error e, .error e' => err e e'
  | _, _ => False

theorem ExceptRel.mono {ε α β : Type} {err err' : ε → ε → Prop} {R R' : α → β → Prop}
    {r : Except ε α} {r' : Except ε β} (h : ExceptRel err R r r')
    (herr : ∀ e e', err e e' → err' e e') (hR : ∀ a b, R a b → R' a b) :
    ExceptRel err' R' r r' := by
  cases r with
  | ok a =>
      cases r' with
      | ok b => exact hR a b h
      | error _ => cases h
  | error e =>
      cases r' with
      | ok _ => cases h
      | error e' => exact herr e e' h

theorem exceptRel_eq_iff {ε α : Type} {r r' : Except ε α} : ExceptRel Eq Eq r r' ↔ r = r' := by
  cases r <;> cases r' <;> simp [ExceptRel]

namespace Table

variable {α β : Type} {R : α → β → Prop} {t : Table α} {u : Table β}

/-- The same keys with related values. -/
def Rel (R : α → β → Prop) (t : Table α) (u : Table β) : Prop :=
  List.Forall₂ (fun a b => a.1 = b.1 ∧ R a.2 b.2) t.entries u.entries

theorem rel_empty : Rel R (∅ : Table α) (∅ : Table β) := List.Forall₂.nil

theorem rel_lookup {as : List (String × α)} {bs : List (String × β)}
    (h : List.Forall₂ (fun a b => a.1 = b.1 ∧ R a.2 b.2) as bs) (key : String) :
    Option.Rel R (as.lookup key) (bs.lookup key) := by
  induction h with
  | nil => exact .none
  | @cons a b as bs hab _ ih =>
      obtain ⟨k, v⟩ := a
      obtain ⟨l, w⟩ := b
      obtain ⟨rfl, hvw⟩ : k = l ∧ R v w := hab
      rw [lookup_entry, lookup_entry]
      split
      · exact .some hvw
      · exact ih

theorem Rel.find? (h : Rel R t u) (key : String) : Option.Rel R (t.find? key) (u.find? key) :=
  rel_lookup h key

theorem rel_place {as : List (String × α)} {bs : List (String × β)}
    (h : List.Forall₂ (fun a b => a.1 = b.1 ∧ R a.2 b.2) as bs) (key : String) {v : α} {w : β}
    (hvw : R v w) :
    List.Forall₂ (fun a b => a.1 = b.1 ∧ R a.2 b.2) (place key v as) (place key w bs) := by
  induction h with
  | nil => exact .cons ⟨rfl, hvw⟩ .nil
  | @cons a b as bs hab hrest ih =>
      obtain ⟨k, x⟩ := a
      obtain ⟨l, y⟩ := b
      obtain ⟨rfl, hxy⟩ : k = l ∧ R x y := hab
      simp only [place]
      split
      · exact .cons ⟨rfl, hvw⟩ hrest
      · split
        · exact .cons ⟨rfl, hvw⟩ (.cons ⟨rfl, hxy⟩ hrest)
        · exact .cons ⟨rfl, hxy⟩ ih

theorem Rel.insert (h : Rel R t u) (key : String) {v : α} {w : β} (hvw : R v w) :
    Rel R (t.insert key v) (u.insert key w) :=
  rel_place h key hvw

theorem Rel.insertNew (h : Rel R t u) (key : String) {v : α} {w : β} (hvw : R v w) :
    Rel R (t.insertNew key v) (u.insertNew key w) := by
  have hkey := h.find? key
  unfold Table.insertNew
  rw [contains_eq, contains_eq]
  generalize t.find? key = a, u.find? key = b at hkey
  cases hkey with
  | some _ => simpa using h
  | none => simpa using h.insert key hvw

theorem Rel.insertAll (h : Rel R t u) (names : List String) {v : α} {w : β} (hvw : R v w) :
    Rel R (names.foldl (fun t name => t.insert name v) t)
      (names.foldl (fun u name => u.insert name w) u) := by
  induction names generalizing t u with
  | nil => exact h
  | cons name rest ih => exact ih (h.insert name hvw)

theorem Rel.foldl_insertNew {as : List (String × α)} {bs : List (String × β)}
    (hab : List.Forall₂ (fun a b => a.1 = b.1 ∧ R a.2 b.2) as bs) (h : Rel R t u) :
    Rel R (as.foldl (fun t entry => t.insertNew entry.1 entry.2) t)
      (bs.foldl (fun u entry => u.insertNew entry.1 entry.2) u) := by
  induction hab generalizing t u with
  | nil => exact h
  | @cons a b as bs hab _ ih =>
      rw [List.foldl_cons, List.foldl_cons, ← hab.1]
      exact ih (h.insertNew a.1 hab.2)

theorem Rel.orElse {t' : Table α} {u' : Table β} (h : Rel R t u) (h' : Rel R t' u') :
    Rel R (t.orElse t') (u.orElse u') :=
  Rel.foldl_insertNew h' h

end Table

def InferError.isUnknownStruct : InferError → Bool
  | .unknownStruct .. => true
  | _ => false

structure Likeness where
  /-- Names that stand for each other. -/
  name : String → String → Prop
  /-- The names that types may have. -/
  word : String → Prop
  /-- The modules that may own a type. -/
  owner : String → Prop
  /-- The simple types that may occur, and the names that structs and wrappers may go by. -/
  simple : SimpleTy → Prop
  /-- Errors that stand for each other. -/
  err : InferError → InferError → Prop

mutual

def Ty.Like (l : Likeness) : Ty → Ty → Prop
  | .simple a, .simple b => a = b ∧ l.simple a
  | .array a, .array b => Ty.Like l a b
  | .map k a, .map k' b => k = k' ∧ l.simple k ∧ Ty.Like l a b
  | .struct n o ⟨as⟩, .struct m o' ⟨bs⟩ =>
      l.name n m ∧ o = o' ∧ l.simple ⟨n, some o⟩ ∧ Ty.LikeFields l as bs
  | .func f, .func g => Signature.Like l f g
  | .wrapper n o a, .wrapper m o' b => n = m ∧ o = o' ∧ l.simple ⟨n, some o⟩ ∧ Ty.Like l a b
  | .interface, .interface => True
  | .stub, .stub => True
  | _, _ => False

def Signature.Like (l : Likeness) : Signature → Signature → Prop
  | ⟨n, o, r, as, rs⟩, ⟨m, o', r', bs, ss⟩ =>
      l.name n m ∧ o = o' ∧ l.owner o ∧ Option.Rel l.name r r' ∧ Ty.LikeList l as bs ∧
        Ty.LikeList l rs ss

def Ty.LikeList (l : Likeness) : List Ty → List Ty → Prop
  | [], [] => True
  | a :: as, b :: bs => Ty.Like l a b ∧ Ty.LikeList l as bs
  | _, _ => False

def Ty.LikeFields (l : Likeness) : List (String × Ty) → List (String × Ty) → Prop
  | [], [] => True
  | (k, a) :: as, (k', b) :: bs => k = k' ∧ Ty.Like l a b ∧ Ty.LikeFields l as bs
  | _, _ => False

end

variable {l : Likeness}

theorem Ty.likeList_iff {as bs : List Ty} :
    Ty.LikeList l as bs ↔ List.Forall₂ (Ty.Like l) as bs := by
  induction as generalizing bs with
  | nil => cases bs <;> simp [Ty.LikeList]
  | cons a as ih => cases bs <;> simp [Ty.LikeList, ih]

theorem Ty.likeFields_iff {as bs : List (String × Ty)} :
    Ty.LikeFields l as bs ↔
      List.Forall₂ (fun a b => a.1 = b.1 ∧ Ty.Like l a.2 b.2) as bs := by
  induction as generalizing bs with
  | nil => cases bs <;> simp [Ty.LikeFields]
  | cons a as ih =>
      obtain ⟨k, t⟩ := a
      cases bs with
      | nil => simp [Ty.LikeFields]
      | cons b bs =>
          obtain ⟨k', t'⟩ := b
          simp [Ty.LikeFields, ih, and_assoc]

/-- Alike types by their form. -/
inductive Ty.LikeForm (l : Likeness) : Ty → Ty → Prop
  | simple {s : SimpleTy} (hs : l.simple s) : LikeForm l (.simple s) (.simple s)
  | array {t u : Ty} (h : Ty.Like l t u) : LikeForm l (.array t) (.array u)
  | map {k : SimpleTy} {t u : Ty} (hk : l.simple k) (h : Ty.Like l t u) :
      LikeForm l (.map k t) (.map k u)
  | struct {n m o : String} {fs gs : Table Ty} (hn : l.name n m) (ho : l.simple ⟨n, some o⟩)
      (hf : Table.Rel (Ty.Like l) fs gs) : LikeForm l (.struct n o fs) (.struct m o gs)
  | func {f g : Signature} (h : Signature.Like l f g) : LikeForm l (.func f) (.func g)
  | wrapper {n o : String} {t u : Ty} (ho : l.simple ⟨n, some o⟩) (h : Ty.Like l t u) :
      LikeForm l (.wrapper n o t) (.wrapper n o u)
  | interface : LikeForm l .interface .interface
  | stub : LikeForm l .stub .stub

theorem Ty.Like.form {t u : Ty} (h : Ty.Like l t u) : Ty.LikeForm l t u := by
  rcases t with _ | _ | _ | ⟨_, _, ⟨_⟩⟩ | _ | _ | _ | _ <;>
    rcases u with _ | _ | _ | ⟨_, _, ⟨_⟩⟩ | _ | _ | _ | _ <;> simp only [Ty.Like] at h
  case simple.simple =>
    obtain ⟨rfl, hs⟩ := h
    exact .simple hs
  case array.array => exact .array h
  case map.map =>
    obtain ⟨rfl, hk, h⟩ := h
    exact .map hk h
  case struct.struct =>
    obtain ⟨hn, rfl, ho, hf⟩ := h
    exact .struct hn ho (Ty.likeFields_iff.mp hf)
  case func.func => exact .func h
  case wrapper.wrapper =>
    obtain ⟨rfl, rfl, ho, h⟩ := h
    exact .wrapper ho h
  case interface.interface => exact .interface
  case stub.stub => exact .stub

theorem Ty.like_iff {t u : Ty} : Ty.Like l t u ↔ Ty.LikeForm l t u := by
  refine ⟨Ty.Like.form, fun h => ?_⟩
  cases h with
  | simple hs => simpa [Ty.Like] using hs
  | array h => simpa [Ty.Like] using h
  | map hk h => simpa [Ty.Like] using ⟨hk, h⟩
  | @struct _ _ _ fs gs hn ho hf =>
      obtain ⟨as⟩ := fs
      obtain ⟨bs⟩ := gs
      simpa [Ty.Like] using ⟨hn, ho, Ty.likeFields_iff.mpr hf⟩
  | func h => simpa [Ty.Like] using h
  | wrapper ho h => simpa [Ty.Like] using ⟨ho, h⟩
  | interface => simp [Ty.Like]
  | stub => simp [Ty.Like]

theorem Signature.like_iff {f g : Signature} :
    Signature.Like l f g ↔ l.name f.name g.name ∧ f.owner = g.owner ∧ l.owner f.owner ∧
      Option.Rel l.name f.receiver g.receiver ∧ List.Forall₂ (Ty.Like l) f.args g.args ∧
      List.Forall₂ (Ty.Like l) f.results g.results := by
  cases f
  cases g
  simp only [Signature.Like, Ty.likeList_iff]

/-- What a likeness has to allow for inference to respect it. -/
structure Likeness.Lawful (l : Likeness) : Prop where
  name_refl : ∀ n, l.name n n
  err_refl : ∀ e : InferError, e.isUnknownStruct = false → l.err e e
  basic : ∀ name ∈ ["bool", "float", "int", "map", "string"], l.word name
  reference : ∀ {name home}, l.word name → l.owner home → l.simple ⟨name, some home⟩
  predeclared : ∀ {name}, l.word name →
    l.simple ⟨(Predeclared.canonical? name).getD name, none⟩
  simple_word : ∀ {s}, l.simple s → l.word s.name
  simple_owner : ∀ {s o}, l.simple s → s.owner = some o → l.owner o
  err_isUnknownStruct : ∀ {e e'}, l.err e e' → e.isUnknownStruct = e'.isUnknownStruct
  err_type : ∀ {k : String → InferError} {t u}, (∀ text, (k text).isUnknownStruct = false) →
    Ty.Like l t u → l.err (k t.qualifiedName) (k u.qualifiedName)
  err_result : ∀ {f g} (i : Nat), Signature.Like l f g →
    l.err (.missingResult f.name i) (.missingResult g.name i)

theorem Ty.Like.unwrap {t u : Ty} (h : Ty.Like l t u) : Ty.Like l t.unwrap u.unwrap := by
  match t, u, h.form with
  | .wrapper .., _, .wrapper _ hw => exact hw.unwrap
  | .simple .., _, .simple _ | .array _, _, .array _ | .map .., _, .map ..
  | .struct .., _, .struct .. | .func _, _, .func _ | .interface, _, .interface
  | .stub, _, .stub => exact h

theorem Ty.Like.owner?_eq {t u : Ty} (h : Ty.Like l t u) : t.owner? = u.owner? := by
  match t, u, h.form with
  | .array _, _, .array hitem => exact hitem.owner?_eq
  | .func _, _, .func hg => exact congrArg some (Signature.like_iff.mp hg).2.1
  | .simple .., _, .simple _ | .map .., _, .map .. | .struct .., _, .struct ..
  | .wrapper .., _, .wrapper .. | .interface, _, .interface | .stub, _, .stub => rfl

namespace Likeness.Lawful

variable (law : l.Lawful) {t u : Ty} {f g : Signature} {home : String}

include law

theorem receiver_refl (receiver : Option String) : Option.Rel l.name receiver receiver := by
  cases receiver with
  | none => exact .none
  | some name => exact .some (law.name_refl name)

theorem like_predeclared {name : String} (hw : l.word name) :
    Ty.Like l (.predeclared name) (.predeclared name) :=
  Ty.like_iff.mpr (.simple (law.predeclared hw))

theorem like_basic {name : String} (h : name ∈ ["bool", "float", "int", "map", "string"]) :
    Ty.Like l (.predeclared name) (.predeclared name) :=
  law.like_predeclared (law.basic name h)

theorem like_reference {name : String} (hw : l.word name) (ho : l.owner home) :
    Ty.Like l (.reference name (some home)) (.reference name (some home)) :=
  Ty.like_iff.mpr (.simple (law.reference hw ho))

theorem like_unboundType {name : String} (hw : l.word name) (ho : l.owner home) :
    Ty.Like l (Inference.unboundType name home) (Inference.unboundType name home) := by
  unfold Inference.unboundType
  split
  · exact law.like_predeclared hw
  · exact law.like_reference hw ho

theorem typeOfLiteral (kind : LiteralKind) :
    ExceptRel l.err (Ty.Like l) (Inference.typeOfLiteral kind) (Inference.typeOfLiteral kind) := by
  cases kind with
  | char => exact law.err_refl _ rfl
  | imag => exact law.err_refl _ rfl
  | _ => exact law.like_basic (by decide)

theorem elementType (h : Ty.Like l t u) :
    ExceptRel l.err (Ty.Like l) (Inference.elementType t) (Inference.elementType u) := by
  have hw := h.unwrap
  have herr := law.err_type (k := .invalidIndex) (fun _ => rfl) hw
  unfold Inference.elementType
  generalize t.unwrap = a, u.unwrap = b at hw herr
  cases hw.form with
  | array hitem => exact hitem
  | map _ hvalue => exact hvalue
  | _ => exact herr

theorem rangeType (h : Ty.Like l t u) :
    ExceptRel l.err (Ty.Like l) (Inference.rangeType t) (Inference.rangeType u) := by
  have hw := h.unwrap
  have herr := law.err_type (k := .invalidRange) (fun _ => rfl) hw
  unfold Inference.rangeType
  generalize t.unwrap = a, u.unwrap = b at hw herr
  cases hw.form with
  | array hitem => exact hitem
  | _ => exact herr

theorem mkMap {k k' : Ty} (hk : Ty.Like l k k') (h : Ty.Like l t u) :
    ExceptRel l.err (Ty.Like l) (Ty.mkMap k t) (Ty.mkMap k' u) := by
  have herr := law.err_type (k := .nonSimpleMapKey) (fun _ => rfl) hk
  unfold Ty.mkMap
  cases hk.form with
  | simple hs => exact Ty.like_iff.mpr (.map hs h)
  | _ => exact herr

theorem resultAt (h : Signature.Like l f g) (i : Nat) :
    ExceptRel l.err (Ty.Like l) (Inference.resultAt f i) (Inference.resultAt g i) := by
  obtain ⟨_, _, _, _, _, hresults⟩ := Signature.like_iff.mp h
  have hi : Option.Rel (Ty.Like l) f.results[i]? g.results[i]? := by
    clear h
    generalize f.results = as, g.results = bs at hresults
    induction hresults generalizing i with
    | nil => exact .none
    | cons hab _ ih =>
        cases i with
        | zero => exact .some hab
        | succ i => exact ih i
  unfold Inference.resultAt
  generalize f.results[i]? = a, g.results[i]? = b at hi
  cases hi with
  | some hab => exact hab
  | none => exact law.err_result i h

theorem conversion (name : String) (ho : l.owner home) (h : Ty.Like l t u) :
    Signature.Like l ⟨name, home, none, [], [t]⟩ ⟨name, home, none, [], [u]⟩ :=
  Signature.like_iff.mpr ⟨law.name_refl name, rfl, ho, .none, .nil, .cons h .nil⟩

theorem calleeSignature (ho : l.owner home) (h : Ty.Like l t u) :
    ExceptRel l.err (Signature.Like l) (Inference.calleeSignature t home)
      (Inference.calleeSignature u home) := by
  have herr := law.err_type (k := .notCallable) (fun _ => rfl) h
  unfold Inference.calleeSignature
  cases h.form with
  | func hg => exact hg
  | @simple s hs =>
      obtain ⟨name, owner⟩ := s
      cases owner with
      | none => exact law.conversion name ho h
      | some o => exact law.conversion name (law.simple_owner hs rfl) h
  | wrapper hn _ => exact law.conversion _ (law.simple_owner hn rfl) h
  | _ => exact herr

end Likeness.Lawful

mutual

theorem Likeness.Lawful.fits (law : l.Lawful) {t u : Ty} (h : Ty.Like l t u)
    (expected : Expectation) (overrides : Overrides) :
    ExceptRel l.err Eq (t.fits expected overrides) (u.fits expected overrides) := by
  have herr := law.err_type (k := fun text => .structCategory text expected.text)
    (fun _ => rfl) h
  match t, u, h.form with
  | .func _, _, .func hg =>
      simp only [Ty.fits]
      exact law.fits_signature hg expected overrides
  | .wrapper _ _ _, _, .wrapper _ hw =>
      simp only [Ty.fits]
      split
      · exact rfl
      · exact law.fits hw expected overrides
  | _, _, .struct .. => exact herr
  | _, _, .simple _ | _, _, .array _ | _, _, .map .. | _, _, .interface | _, _, .stub => exact rfl

theorem Likeness.Lawful.fits_signature (law : l.Lawful) {f g : Signature}
    (h : Signature.Like l f g) (expected : Expectation) (overrides : Overrides) :
    ExceptRel l.err Eq (f.fits expected overrides) (g.fits expected overrides) := by
  obtain ⟨_, _, _, _, _, hresults⟩ := Signature.like_iff.mp h
  match f with
  | ⟨_, _, _, _, []⟩ =>
      obtain ⟨_, _, _, _, _⟩ := g
      cases hresults
      exact rfl
  | ⟨_, _, _, _, t :: ts⟩ =>
      obtain ⟨_, _, _, _, _⟩ := g
      cases hresults with
      | cons hab _ =>
          simp only [Signature.fits, Ty.headFits]
          exact law.fits hab expected overrides

end

section Exact

theorem Likeness.receiver_eq (hname : ∀ {n m}, l.name n m → n = m) {r r' : Option String}
    (h : Option.Rel l.name r r') : r = r' := by
  cases h with
  | none => rfl
  | some h => rw [hname h]

mutual

/-- Where every name stands for itself only, nothing but a type itself is like it. -/
theorem Ty.eq_of_like (hname : ∀ {n m}, l.name n m → n = m) {t u : Ty} (h : Ty.Like l t u) :
    t = u := by
  match t, u, h.form with
  | .array _, _, .array hitem => rw [Ty.eq_of_like hname hitem]
  | .map _ _, _, .map _ hvalue => rw [Ty.eq_of_like hname hvalue]
  | .struct _ _ ⟨as⟩, .struct _ _ ⟨bs⟩, .struct hn _ hf =>
      have hfields : as = bs := Ty.fields_eq_of_like hname (Ty.likeFields_iff.mpr hf)
      rw [hname hn, hfields]
  | .func _, _, .func hg => rw [Signature.eq_of_like hname hg]
  | .wrapper _ _ _, _, .wrapper _ hw => rw [Ty.eq_of_like hname hw]
  | .simple _, _, .simple _ | .interface, _, .interface | .stub, _, .stub => rfl

theorem Signature.eq_of_like (hname : ∀ {n m}, l.name n m → n = m) {f g : Signature}
    (h : Signature.Like l f g) : f = g := by
  match f, g with
  | ⟨_, _, _, _, _⟩, ⟨_, _, _, _, _⟩ =>
      rw [Signature.Like] at h
      obtain ⟨hn, rfl, _, hr, hargs, hresults⟩ := h
      rw [hname hn, Likeness.receiver_eq hname hr, Ty.list_eq_of_like hname hargs,
        Ty.list_eq_of_like hname hresults]

theorem Ty.list_eq_of_like (hname : ∀ {n m}, l.name n m → n = m) {as bs : List Ty}
    (h : Ty.LikeList l as bs) : as = bs := by
  match as, bs with
  | [], [] => rfl
  | a :: as, b :: bs =>
      rw [Ty.LikeList] at h
      rw [Ty.eq_of_like hname h.1, Ty.list_eq_of_like hname h.2]
  | [], _ :: _ | _ :: _, [] => simp [Ty.LikeList] at h

theorem Ty.fields_eq_of_like (hname : ∀ {n m}, l.name n m → n = m) {as bs : List (String × Ty)}
    (h : Ty.LikeFields l as bs) : as = bs := by
  match as, bs with
  | [], [] => rfl
  | (_, a) :: as, (_, b) :: bs =>
      rw [Ty.LikeFields] at h
      obtain ⟨rfl, ha, has⟩ := h
      rw [Ty.eq_of_like hname ha, Ty.fields_eq_of_like hname has]
  | [], _ :: _ | _ :: _, [] => simp [Ty.LikeFields] at h

end

/-- Nothing but a type itself is like it; errors may stand for each other. -/
def Likeness.exact (err : InferError → InferError → Prop) : Likeness :=
  ⟨Eq, fun _ => True, fun _ => True, fun _ => True, err⟩

variable {err : InferError → InferError → Prop}

theorem Likeness.exact_receiver (r : Option String) : Option.Rel (Likeness.exact err).name r r := by
  cases r with
  | none => exact .none
  | some name => exact .some rfl

mutual

theorem Ty.like_exact (t : Ty) : Ty.Like (.exact err) t t := by
  match t with
  | .simple _ => exact Ty.like_iff.mpr (.simple trivial)
  | .array t => exact Ty.like_iff.mpr (.array (Ty.like_exact t))
  | .map _ t => exact Ty.like_iff.mpr (.map trivial (Ty.like_exact t))
  | .struct _ _ ⟨as⟩ =>
      exact Ty.like_iff.mpr (.struct rfl trivial (Ty.likeFields_iff.mp (Ty.likeFields_exact as)))
  | .func f => exact Ty.like_iff.mpr (.func (Signature.like_exact f))
  | .wrapper _ _ t => exact Ty.like_iff.mpr (.wrapper trivial (Ty.like_exact t))
  | .interface => exact Ty.like_iff.mpr .interface
  | .stub => exact Ty.like_iff.mpr .stub

theorem Signature.like_exact (f : Signature) : Signature.Like (.exact err) f f := by
  match f with
  | ⟨_, _, r, as, rs⟩ =>
      rw [Signature.Like]
      exact ⟨rfl, rfl, trivial, Likeness.exact_receiver r, Ty.likeList_exact as,
        Ty.likeList_exact rs⟩

theorem Ty.likeList_exact (as : List Ty) : Ty.LikeList (.exact err) as as := by
  match as with
  | [] => rw [Ty.LikeList]; trivial
  | a :: as =>
      rw [Ty.LikeList]
      exact ⟨Ty.like_exact a, Ty.likeList_exact as⟩

theorem Ty.likeFields_exact (as : List (String × Ty)) : Ty.LikeFields (.exact err) as as := by
  match as with
  | [] => rw [Ty.LikeFields]; trivial
  | (_, t) :: as =>
      rw [Ty.LikeFields]
      exact ⟨rfl, Ty.like_exact t, Ty.likeFields_exact as⟩

end

theorem Ty.like_exact_iff (t u : Ty) : Ty.Like (.exact err) t u ↔ t = u :=
  ⟨Ty.eq_of_like id, fun h => h ▸ Ty.like_exact t⟩

theorem Signature.like_exact_iff (f g : Signature) : Signature.Like (.exact err) f g ↔ f = g :=
  ⟨Signature.eq_of_like id, fun h => h ▸ Signature.like_exact f⟩

theorem Table.rel_exact_iff {t u : Table Ty} : Table.Rel (Ty.Like (.exact err)) t u ↔ t = u := by
  obtain ⟨as⟩ := t
  obtain ⟨bs⟩ := u
  unfold Table.Rel
  rw [← Ty.likeFields_iff, Table.mk.injEq]
  exact ⟨Ty.fields_eq_of_like id, fun h => h ▸ Ty.likeFields_exact as⟩

theorem Likeness.exact_lawful
    (hrefl : ∀ e : InferError, e.isUnknownStruct = false → err e e)
    (hunknown : ∀ {e e'}, err e e' → e.isUnknownStruct = e'.isUnknownStruct) :
    (Likeness.exact err).Lawful where
  name_refl _ := rfl
  err_refl := hrefl
  basic _ _ := trivial
  reference _ _ := trivial
  predeclared _ := trivial
  simple_word _ := trivial
  simple_owner _ _ := trivial
  err_isUnknownStruct := hunknown
  err_type hk h := by
    rw [(Ty.like_exact_iff _ _).mp h]
    exact hrefl _ (hk _)
  err_result _ h := by
    rw [(Signature.like_exact_iff _ _).mp h]
    exact hrefl _ rfl

theorem Likeness.exact_eq_lawful : (Likeness.exact Eq).Lawful :=
  exact_lawful (fun _ _ => rfl) fun h => congrArg _ h

end Exact

end ResourceLint
