import ResourceLint.Table

/-!
# Values of settings files

Texts, lists and tables. What may still be added to a table depends on how it came to be: a table
given by a header is closed to dotted keys, and a table written in place is closed altogether.
-/

namespace ResourceLint.Toml

inductive Origin where
  /-- Named by a header of its own. -/
  | header
  /-- Named only as a part of the path of a header. -/
  | implied
  /-- Named as a part of a dotted key. -/
  | dotted
  /-- Written in braces. -/
  | inline
  deriving DecidableEq, Repr, Inhabited

inductive Value where
  | text (s : String)
  | list (items : List Value)
  | table (origin : Origin) (entries : Table Value)

instance : Inhabited Value := ⟨.text ""⟩

namespace Value

/-- Whether a dotted key may go on through a table. `isLast` says that the key's value goes into
the table itself. -/
def admitsDotted (origin : Origin) (isLast : Bool) : Bool :=
  match origin with
  | .dotted => true
  | .implied => !isLast
  | .header | .inline => false

/-- Add the value of a dotted key. No key is given twice. -/
def put : List String → Value → Table Value → Option (Table Value)
  | [], _, _ => none
  | [key], value, t => if t.contains key then none else some (t.insert key value)
  | key :: path, value, t =>
      match t.find? key with
      | none => (put path value ∅).map fun sub => t.insert key (.table .dotted sub)
      | some (.table origin sub) =>
          if admitsDotted origin (path.length == 1) then
            (put path value sub).map fun sub => t.insert key (.table origin sub)
          else none
      | some _ => none

/-- Begin the table of a header. A table has one header at most. -/
def begin : List String → Table Value → Option (Table Value)
  | [], _ => none
  | [key], t =>
      match t.find? key with
      | none => some (t.insert key (.table .header ∅))
      | some (.table .implied sub) => some (t.insert key (.table .header sub))
      | some _ => none
  | key :: path, t =>
      match t.find? key with
      | none => (begin path ∅).map fun sub => t.insert key (.table .implied sub)
      | some (.table .inline _) => none
      | some (.table origin sub) =>
          (begin path sub).map fun sub => t.insert key (.table origin sub)
      | some _ => none

/-- Add the value of a dotted key to the table at a path. -/
def putAt : List String → List String → Value → Table Value → Option (Table Value)
  | [], keys, value, t => put keys value t
  | key :: path, keys, value, t =>
      match t.find? key with
      | some (.table origin sub) =>
          (putAt path keys value sub).map fun sub => t.insert key (.table origin sub)
      | _ => none

end Value

end ResourceLint.Toml
