import ResourceLint.Inference
import ResourceLint.Proofs.Renaming

/-!
# Qualified names stand for themselves

A name is joined to its owner by a dot, and cut off again at the last dot; whether there is anything
to cut off is told by the part after the last slash. Owners may have dots and slashes of any kind.
As long as the name itself has none, nothing is lost: the owner and the name can be read back, and
from any module a qualified name leads to the same fields and methods as the bare name does in its
owner's module (`qualified_name_stands`).
-/

namespace ResourceLint

open Inference InferM

variable {owner name : String}

/-- A tail without the mark stays behind the last mark. -/
theorem Text.afterLast_append_of_notMem {mark : Char} (head : String) {tail : String}
    (free : mark ∉ tail.toList) : afterLast mark (head ++ tail) = afterLast mark head ++ tail := by
  simp only [afterLast, String.toList_append, List.reverse_append]
  rw [List.takeWhile_append_of_pos (all_ne_of_notMem free), List.reverse_append,
    List.reverse_reverse, String.ofList_append, String.ofList_toList]

namespace QualifiedName

theorem qualify_of_isQualified {name : String} (h : isQualified name = true) (owner : String) :
    qualify owner name = name := by
  rw [qualify, if_pos h, ite_self]

theorem qualify_of_notMem (howner : owner.isEmpty = false) (hdot : '.' ∉ name.toList) :
    qualify owner name = owner ++ "." ++ name := by
  rw [qualify, howner, isQualified_of_notMem hdot]
  rfl

/-- The dot before a name without slashes comes after all slashes of the owner. -/
theorem isQualified_append (owner : String) (hslash : '/' ∉ name.toList) :
    isQualified (owner ++ "." ++ name) = true := by
  have hfree : '/' ∉ ("." ++ name).toList := by simpa using hslash
  rw [isQualified, lastPart, String.append_assoc, Text.afterLast_append_of_notMem owner hfree]
  simp

theorem split_append (owner : String) (hdot : '.' ∉ name.toList) (hslash : '/' ∉ name.toList)
    (home : String) : split (owner ++ "." ++ name) home = (name, owner) := by
  rw [split, if_pos (isQualified_append owner hslash)]
  exact Prod.ext (Text.afterLast_append owner hdot) (Text.beforeLast_append owner hdot)

end QualifiedName

open QualifiedName

namespace Inference

variable {p : Program} {ask : Ask} {name' home home' : String}

/-- A struct is looked for by the bare name in the module of the owner. -/
theorem declaredFields_of_split (h : split name home = split name' home') :
    declaredFields p ask name home = declaredFields p ask name' home' := by
  rw [declaredFields, declaredFields, h]

theorem methodSignature_of_split (h : split name home = split name' home') (method : String) :
    methodSignature p ask method name home = methodSignature p ask method name' home' := by
  rw [methodSignature, methodSignature, h]

end Inference

/-- A name without dots and slashes can be read back from any qualified name together with its
owner, the qualified name takes no second owner, and wherever it is used it gives the same fields
and methods in every session, and leaves the same session behind, as the bare name at its owner. -/
theorem qualified_name_stands (howner : owner.isEmpty = false) (hdot : '.' ∉ name.toList)
    (hslash : '/' ∉ name.toList) :
    (∀ home, split (qualify owner name) home = (name, owner)) ∧
    isQualified (qualify owner name) = true ∧
    (∀ known, isQualified known = true → ∀ other, qualify other known = known) ∧
    ∀ (p : Program) (home : String) (depth : Nat) (s : Session),
      p.declaredFields depth (qualify owner name) home s = p.declaredFields depth name owner s ∧
      ∀ method, p.methodSignature depth method (qualify owner name) home s =
        p.methodSignature depth method name owner s := by
  rw [qualify_of_notMem howner hdot]
  have hsplit (home : String) : split (owner ++ "." ++ name) home = split name owner := by
    rw [split_append owner hdot hslash, split_of_notMem hdot]
  refine ⟨split_append owner hdot hslash, isQualified_append owner hslash,
    fun _ h => qualify_of_isQualified h, fun p home depth s => ⟨?_, fun method => ?_⟩⟩
  · rw [Program.declaredFields, Program.declaredFields, declaredFields_of_split (hsplit home)]
  · rw [Program.methodSignature, Program.methodSignature, methodSignature_of_split (hsplit home)]

/-- The only module declares `type Crate struct { Size int }` and `func (Crate) Open() bool`. -/
def crates : Program :=
  (Program.empty []).add ⟨"lib.org/v2.1", "lib", [],
    [⟨"Open", some ⟨none, ⟨.zero, .ident "Crate" none⟩⟩, [],
      [⟨[], ⟨.zero, .ident "bool" none⟩, .zero⟩], [], .zero⟩],
    [⟨"Crate", ⟨.zero, .structType [⟨["Size"], ⟨.zero, .ident "int" none⟩, .zero⟩]⟩, .zero⟩], [], ∅⟩

theorem crates_stand :
    split "lib.org/v2.1.Crate" "m" = ("Crate", "lib.org/v2.1") ∧
    (∃ fields s, Ends (crates.declaredFields · "lib.org/v2.1.Crate" "m") .new (.ok fields) s ∧
      fields.find? "Size" = some (.predeclared "int")) ∧
    ∃ sig s, Ends (crates.methodSignature · "Open" "lib.org/v2.1.Crate" "m") .new (.ok sig) s ∧
      sig.receiver = some "Crate" ∧ sig.results = [.predeclared "bool"] := by
  have hstands := @qualified_name_stands "lib.org/v2.1" "Crate" rfl (by decide) (by decide)
  rw [show qualify "lib.org/v2.1" "Crate" = "lib.org/v2.1.Crate" by decide] at hstands
  obtain ⟨hsplit, -, -, hsame⟩ := hstands
  obtain ⟨hfields, hmethod⟩ := hsame crates "m" 4 .new
  refine ⟨hsplit "m", ⟨_, _, ⟨4, hfields.trans rfl⟩, rfl⟩, ?_⟩
  exact ⟨_, _, ⟨4, (hmethod "Open").trans rfl⟩, rfl, rfl⟩

end ResourceLint
