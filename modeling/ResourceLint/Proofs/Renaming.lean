import Mathlib.Data.List.Infix
import ResourceLint.Proofs.Growth

/-!
# Types that differ in drawn names

Which name is drawn for a type written in place depends on how many were drawn before it. Types are
taken to be alike when they agree apart from such names. What a name is used for then does not
depend on the number in it, as long as no declaration has a name with a drawn name in it: no
declaration is found under a drawn name, and no method either.
-/

namespace ResourceLint

open Inference

section DrawnTexts

/-- Whether a name looks drawn for one kind or the other. -/
def looksDrawn (name : String) : Bool :=
  InPlaceKind.struct.looksDrawn name || InPlaceKind.func.looksDrawn name

/-- Whether a text starts with the word of the kind and eight digits. -/
def InPlaceKind.startsDrawn (kind : InPlaceKind) (chars : List Char) : Bool :=
  let digits := (chars.drop kind.text.toList.length).take 8
  kind.text.toList.isPrefixOf chars && (digits.length = 8 && digits.all Char.isDigit)

/-- Whether something that looks drawn stands anywhere in a text. -/
def holdsDrawn (text : String) : Bool :=
  text.toList.tails.any fun rest =>
    InPlaceKind.struct.startsDrawn rest || InPlaceKind.func.startsDrawn rest

theorem InPlaceKind.looksDrawn_iff {kind : InPlaceKind} {name : String} :
    kind.looksDrawn name = true ↔ ∃ digits : List Char, name.toList = kind.text.toList ++ digits ∧
      8 ≤ digits.length ∧ ∀ c ∈ digits, c.isDigit = true := by
  simp only [InPlaceKind.looksDrawn, Bool.and_eq_true, List.isPrefixOf_iff_prefix,
    decide_eq_true_eq, List.all_eq_true]
  constructor
  · rintro ⟨⟨digits, hname⟩, hlength, hdigits⟩
    rw [← hname, List.drop_left] at hlength hdigits
    exact ⟨digits, hname.symm, hlength, hdigits⟩
  · rintro ⟨digits, hname, hlength, hdigits⟩
    rw [hname, List.drop_left]
    exact ⟨List.prefix_append _ _, hlength, hdigits⟩

theorem InPlaceKind.startsDrawn_append {kind : InPlaceKind} {name : String}
    (h : kind.looksDrawn name = true) (rest : List Char) :
    kind.startsDrawn (name.toList ++ rest) = true := by
  obtain ⟨digits, hname, hlength, hdigits⟩ := InPlaceKind.looksDrawn_iff.mp h
  have htake : (digits ++ rest).take 8 = digits.take 8 := List.take_append_of_le_length hlength
  simp only [startsDrawn, hname, List.append_assoc, List.drop_left, htake, List.length_take,
    Bool.and_eq_true, List.isPrefixOf_iff_prefix, decide_eq_true_eq, List.all_eq_true]
  exact ⟨List.prefix_append _ _, by omega, fun c hc => hdigits c (List.mem_of_mem_take hc)⟩

theorem holdsDrawn_append_right {a b : String} (h : holdsDrawn b = true) :
    holdsDrawn (a ++ b) = true := by
  obtain ⟨rest, hrest, hstarts⟩ := List.any_eq_true.mp h
  refine List.any_eq_true.mpr ⟨rest, ?_, hstarts⟩
  rw [List.mem_tails] at hrest ⊢
  rw [String.toList_append]
  exact hrest.trans (List.suffix_append _ _)

theorem holdsDrawn_append_left {name : String} (h : looksDrawn name = true) (rest : String) :
    holdsDrawn (name ++ rest) = true := by
  refine List.any_eq_true.mpr ⟨_, (List.mem_tails ..).mpr List.suffix_rfl, ?_⟩
  rw [String.toList_append, Bool.or_eq_true]
  rcases (Bool.or_eq_true _ _).mp h with h | h
  · exact .inl (InPlaceKind.startsDrawn_append h _)
  · exact .inr (InPlaceKind.startsDrawn_append h _)

theorem holdsDrawn_of_looksDrawn {name : String} (h : looksDrawn name = true) :
    holdsDrawn name = true := by
  have happend := holdsDrawn_append_left h ""
  rwa [String.append_empty] at happend

theorem chars_of_looksDrawn {name : String} (h : looksDrawn name = true) :
    ∃ kind : InPlaceKind, ∃ digits : List Char, name.toList = kind.text.toList ++ digits ∧
      ∀ c ∈ digits, c.isDigit = true := by
  rcases (Bool.or_eq_true _ _).mp h with h | h
  · obtain ⟨digits, hname, _, hdigits⟩ := InPlaceKind.looksDrawn_iff.mp h
    exact ⟨.struct, digits, hname, hdigits⟩
  · obtain ⟨digits, hname, _, hdigits⟩ := InPlaceKind.looksDrawn_iff.mp h
    exact ⟨.func, digits, hname, hdigits⟩

theorem notMem_of_looksDrawn {name : String} (h : looksDrawn name = true) : '.' ∉ name.toList := by
  obtain ⟨kind, digits, hname, hdigits⟩ := chars_of_looksDrawn h
  rw [hname, List.mem_append, not_or]
  constructor
  · cases kind <;> decide
  · intro hdot
    cases hdigits '.' hdot

/-- A name without a dot is not qualified. -/
theorem QualifiedName.isQualified_of_notMem {name : String} (h : '.' ∉ name.toList) :
    isQualified name = false := by
  have hlast : '.' ∉ (lastPart name).toList := by
    intro hdot
    rw [lastPart, Text.afterLast, String.toList_ofList, List.mem_reverse] at hdot
    exact h (List.mem_reverse.mp ((List.takeWhile_sublist _).subset hdot))
  simpa [isQualified] using hlast

theorem QualifiedName.split_of_notMem {name : String} (h : '.' ∉ name.toList) (home : String) :
    split name home = (name, home) := by
  rw [split, isQualified_of_notMem h]
  rfl

theorem split_of_looksDrawn {name : String} (h : looksDrawn name = true) (home : String) :
    QualifiedName.split name home = (name, home) :=
  QualifiedName.split_of_notMem (notMem_of_looksDrawn h) home

/-- A method of a type with a drawn name would have to be declared under that name. -/
theorem method_of_looksDrawn {name : String} (h : looksDrawn name = true) (method : String) :
    QualifiedName.method (some name) method =
      if QualifiedName.isQualified method then method else name ++ ("." ++ method) := by
  have hnonempty : name.isEmpty = false := by
    obtain ⟨kind, digits, hname, _⟩ := chars_of_looksDrawn h
    rw [String.isEmpty_eq_false_iff]
    rintro rfl
    cases kind <;> cases hname
  simp only [QualifiedName.method, QualifiedName.qualify, hnonempty, String.append_assoc,
    Bool.false_eq_true, if_false]

end DrawnTexts

section BlankedTypes

/-- A name with the number of a drawn name left out. -/
def blanked (name : String) : String :=
  if looksDrawn name then "struct00000000" else name

theorem blanked_eq_iff {n m : String} :
    blanked n = blanked m ↔ n = m ∨ looksDrawn n = true ∧ looksDrawn m = true := by
  have hdrawn : looksDrawn "struct00000000" = true := by decide
  unfold blanked
  split <;> split
  · next hn hm => simp [hn, hm]
  · next hn hm =>
      constructor
      · rintro rfl
        exact absurd hdrawn hm
      · rintro (rfl | ⟨_, hm'⟩)
        · exact absurd hn hm
        · exact absurd hm' hm
  · next hn hm =>
      constructor
      · rintro rfl
        exact absurd hdrawn hn
      · rintro (rfl | ⟨hn', _⟩)
        · exact absurd hm hn
        · exact absurd hn' hn
  · next hn hm => simp [hn]

mutual

/-- A type with the numbers of drawn names left out. -/
def Ty.blanked : Ty → Ty
  | .simple s => .simple s
  | .array item => .array item.blanked
  | .map key value => .map key value.blanked
  | .struct name owner ⟨fields⟩ =>
      .struct (ResourceLint.blanked name) owner ⟨Ty.blankedFields fields⟩
  | .func sig => .func sig.blanked
  | .wrapper name owner wrapped => .wrapper name owner wrapped.blanked
  | .interface => .interface
  | .stub => .stub

def Signature.blanked : Signature → Signature
  | ⟨name, owner, receiver, args, results⟩ =>
      ⟨ResourceLint.blanked name, owner, receiver.map ResourceLint.blanked, Ty.blankedList args,
        Ty.blankedList results⟩

def Ty.blankedList : List Ty → List Ty
  | [] => []
  | t :: ts => t.blanked :: Ty.blankedList ts

def Ty.blankedFields : List (String × Ty) → List (String × Ty)
  | [] => []
  | (key, t) :: fields => (key, t.blanked) :: Ty.blankedFields fields

end

/-- Types are alike when they are the same but for the numbers of drawn names. -/
def Likeness.blanked : Likeness where
  name n m := ResourceLint.blanked n = ResourceLint.blanked m
  word _ := True
  owner _ := True
  simple _ := True
  err e e' := e.isUnknownStruct = e'.isUnknownStruct

@[simp] theorem Likeness.blanked_name (n m : String) :
    Likeness.blanked.name n m ↔ ResourceLint.blanked n = ResourceLint.blanked m :=
  Iff.rfl

@[simp] theorem Likeness.blanked_owner (o : String) : Likeness.blanked.owner o := trivial

@[simp] theorem Likeness.blanked_simple (s : SimpleTy) : Likeness.blanked.simple s := trivial

@[simp] theorem Likeness.blanked_receiver (r r' : Option String) :
    Option.Rel Likeness.blanked.name r r' ↔
      r.map ResourceLint.blanked = r'.map ResourceLint.blanked := by
  constructor
  · rintro (h | _)
    · exact congrArg some h
    · rfl
  · intro h
    cases r with
    | none =>
        cases r' with
        | none => exact .none
        | some _ => cases h
    | some n =>
        cases r' with
        | none => cases h
        | some m => exact .some (Option.some.inj h)

mutual

theorem Ty.like_blanked_iff (t u : Ty) : Ty.Like .blanked t u ↔ t.blanked = u.blanked := by
  cases t with
  | simple s => cases u <;> simp [Ty.Like, Ty.blanked]
  | array t => cases u <;> simp [Ty.Like, Ty.blanked, Ty.like_blanked_iff t]
  | map k t => cases u <;> simp [Ty.Like, Ty.blanked, Ty.like_blanked_iff t]
  | struct n o fs =>
      obtain ⟨as⟩ := fs
      cases u with
      | struct m o' gs =>
          obtain ⟨bs⟩ := gs
          simp [Ty.Like, Ty.blanked, Ty.likeFields_blanked_iff as]
      | _ => simp [Ty.Like, Ty.blanked]
  | func f => cases u <;> simp [Ty.Like, Ty.blanked, Signature.like_blanked_iff f]
  | wrapper n o t => cases u <;> simp [Ty.Like, Ty.blanked, Ty.like_blanked_iff t]
  | interface => cases u <;> simp [Ty.Like, Ty.blanked]
  | stub => cases u <;> simp [Ty.Like, Ty.blanked]

theorem Signature.like_blanked_iff (f g : Signature) :
    Signature.Like .blanked f g ↔ f.blanked = g.blanked := by
  obtain ⟨n, o, r, as, rs⟩ := f
  obtain ⟨m, o', r', bs, ss⟩ := g
  simp [Signature.Like, Signature.blanked, Ty.likeList_blanked_iff as, Ty.likeList_blanked_iff rs]

theorem Ty.likeList_blanked_iff (as bs : List Ty) :
    Ty.LikeList .blanked as bs ↔ Ty.blankedList as = Ty.blankedList bs := by
  cases as with
  | nil => cases bs <;> simp [Ty.LikeList, Ty.blankedList]
  | cons a as =>
      cases bs <;> simp [Ty.LikeList, Ty.blankedList, Ty.like_blanked_iff a,
        Ty.likeList_blanked_iff as]

theorem Ty.likeFields_blanked_iff (as bs : List (String × Ty)) :
    Ty.LikeFields .blanked as bs ↔ Ty.blankedFields as = Ty.blankedFields bs := by
  cases as with
  | nil => cases bs <;> simp [Ty.LikeFields, Ty.blankedFields]
  | cons a as =>
      obtain ⟨k, t⟩ := a
      cases bs with
      | nil => simp [Ty.LikeFields, Ty.blankedFields]
      | cons b bs =>
          obtain ⟨k', u⟩ := b
          simp [Ty.LikeFields, Ty.blankedFields, Ty.like_blanked_iff t,
            Ty.likeFields_blanked_iff as, and_assoc]

end

theorem Likeness.blanked_join {r r' u : Except InferError Ty}
    (h : ExceptRel Likeness.blanked.err (Ty.Like .blanked) r u)
    (h' : ExceptRel Likeness.blanked.err (Ty.Like .blanked) r' u) :
    ExceptRel Likeness.blanked.err (Ty.Like .blanked) r r' := by
  cases u with
  | ok v =>
      cases r with
      | error _ => cases h
      | ok t =>
          cases r' with
          | error _ => cases h'
          | ok t' =>
              exact (Ty.like_blanked_iff t t').mpr (((Ty.like_blanked_iff t v).mp h).trans
                ((Ty.like_blanked_iff t' v).mp h').symm)
  | error e =>
      cases r with
      | ok _ => cases h
      | error _ =>
          cases r' with
          | ok _ => cases h'
          | error _ => exact Eq.trans h (Eq.symm h')

theorem Likeness.blanked_lawful : Likeness.blanked.Lawful where
  name_refl _ := rfl
  err_refl _ _ := rfl
  basic _ _ := trivial
  reference _ _ := trivial
  predeclared _ := trivial
  simple_word _ := trivial
  simple_owner _ _ := trivial
  err_isUnknownStruct h := h
  err_type hk _ := (hk _).trans (hk _).symm
  err_result _ _ := rfl

/-- The names of alike types are the same, or have drawn names in them. -/
theorem Ty.Like.name_or_drawn {t u : Ty} (h : Ty.Like .blanked t u) :
    t.name = u.name ∨ holdsDrawn t.name = true ∧ holdsDrawn u.name = true := by
  match t, u, h.form with
  | .array t, _, .array hitem =>
      rcases hitem.name_or_drawn with heq | ⟨ht, hu⟩
      · exact .inl (by simp only [Ty.name, heq])
      · exact .inr ⟨holdsDrawn_append_right ht, holdsDrawn_append_right hu⟩
  | .map k t, _, .map _ hvalue =>
      rcases hvalue.name_or_drawn with heq | ⟨ht, hu⟩
      · exact .inl (by simp only [Ty.name, heq])
      · exact .inr ⟨holdsDrawn_append_right ht, holdsDrawn_append_right hu⟩
  | .struct n _ _, _, .struct hname _ _ =>
      rcases blanked_eq_iff.mp hname with heq | ⟨hn, hm⟩
      · exact .inl heq
      · exact .inr ⟨holdsDrawn_of_looksDrawn hn, holdsDrawn_of_looksDrawn hm⟩
  | .func f, _, .func hg =>
      rcases blanked_eq_iff.mp (Signature.like_iff.mp hg).1 with heq | ⟨hn, hm⟩
      · exact .inl heq
      · exact .inr ⟨holdsDrawn_of_looksDrawn hn, holdsDrawn_of_looksDrawn hm⟩
  | _, _, .simple _ | _, _, .wrapper .. | _, _, .interface | _, _, .stub => exact .inl rfl

end BlankedTypes

/-- Whether a declaration has no drawn name in its own name. -/
def Memo.isClear : Memo → Bool
  | .type d => !holdsDrawn d.name
  | .function f => f.receiverType?.isNone || !holdsDrawn f.key
  | .struct .. | .func .. => true

theorem Memo.isPlain_of_isClear {memo : Memo} (h : memo.isClear = true) : memo.isPlain = true := by
  have hlooks : ∀ {kind : InPlaceKind} {name}, (!holdsDrawn name) = true →
      (!kind.looksDrawn name) = true := by
    intro kind name hclear
    rw [Bool.not_eq_true'] at hclear ⊢
    refine Bool.eq_false_iff.mpr fun hdrawn => ?_
    have hboth : looksDrawn name = true := by
      cases kind with
      | struct => exact (Bool.or_eq_true _ _).mpr (.inl hdrawn)
      | func => exact (Bool.or_eq_true _ _).mpr (.inr hdrawn)
    rw [holdsDrawn_of_looksDrawn hboth] at hclear
    cases hclear
  cases memo with
  | type d => exact hlooks h
  | function f =>
      rcases (Bool.or_eq_true _ _).mp h with hnone | hclear
      · exact (Bool.or_eq_true _ _).mpr (.inl hnone)
      · exact (Bool.or_eq_true _ _).mpr (.inr (hlooks hclear))
  | struct => rfl
  | func => rfl

/-- Nothing is declared under a name with a drawn name in it. -/
structure Symbols.Clear (symbols : Symbols) : Prop where
  types : ∀ {name}, holdsDrawn name = true → symbols.types.find? name = none
  functions : ∀ {key}, holdsDrawn key = true → symbols.functions.contains key = false

/-- A type with a drawn name has no methods but those whose own name says where to look. -/
theorem Symbols.Clear.methodOwners_find? {symbols : Symbols} (h : symbols.Clear) {name : String}
    (hname : looksDrawn name = true) (method : String) :
    (methodOwners symbols name).find? (fun owner =>
        symbols.functions.contains (QualifiedName.method (some owner) method)) =
      if QualifiedName.isQualified method && symbols.functions.contains method then some name
      else none := by
  have howners : methodOwners symbols name = [name] := by
    rw [methodOwners, embeddedNames, h.types (holdsDrawn_of_looksDrawn hname), Option.bind_none]
  rw [howners, List.find?_singleton, method_of_looksDrawn hname]
  cases hmethod : QualifiedName.isQualified method with
  | true => simp
  | false => simp [h.functions (holdsDrawn_append_left hname _)]

theorem Program.clear_symbols {p : Program} {id : String} {symbols : Symbols}
    (hp : p.Within fun _ memo => memo.isClear = true) (h : p.symbols id = .ok symbols) :
    symbols.Clear := by
  obtain ⟨m, _, hm⟩ := Program.symbols_eq_ok h
  have hwithin := hp.symbols h
  constructor
  · intro name hname
    refine Option.eq_none_iff_forall_ne_some.mpr fun d hd => ?_
    obtain ⟨_, rfl⟩ := Symbols.type_of_find? hm hd
    have hclear : (!holdsDrawn d.name) = true := hwithin.types hd _ (Memo.type d).mem_parts
    rw [hname] at hclear
    cases hclear
  · intro key hkey
    rw [Table.contains_eq, Bool.eq_false_iff]
    intro hsome
    obtain ⟨f, hf⟩ := Option.isSome_iff_exists.mp hsome
    obtain ⟨_, receiver, hreceiver, rfl⟩ := Symbols.function_of_find? hm hf
    have hclear : (Memo.function f).isClear = true :=
      hwithin.functions hf _ (Memo.function f).mem_parts
    simp [Memo.isClear, FuncDecl.key, hreceiver, hkey] at hclear

end ResourceLint
