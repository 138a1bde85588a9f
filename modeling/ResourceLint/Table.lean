/-!
# Tables

Finite maps from texts to values. The entries stand in ascending order of their keys (by code
point), so two tables with the same contents are the same value, and going through a table
always follows the order of the keys. What the operations do to a look-up is said in
`ResourceLint.Table.Lemmas`.
-/

namespace ResourceLint

/-- Entries in ascending order of keys, each key at most once. -/
structure Table (α : Type) where
  entries : List (String × α)
  deriving DecidableEq, Repr

namespace Table

variable {α β : Type}

instance : EmptyCollection (Table α) := ⟨⟨[]⟩⟩

instance : Inhabited (Table α) := ⟨∅⟩

def find? (t : Table α) (key : String) : Option α :=
  t.entries.lookup key

def contains (t : Table α) (key : String) : Bool :=
  (t.find? key).isSome

def keys (t : Table α) : List String :=
  t.entries.map Prod.fst

def values (t : Table α) : List α :=
  t.entries.map Prod.snd

def size (t : Table α) : Nat :=
  t.entries.length

def isEmpty (t : Table α) : Bool :=
  t.entries.isEmpty

/-- Put an entry at its place in an ascending list, instead of an older one of the same key. -/
def place (key : String) (value : α) : List (String × α) → List (String × α)
  | [] => [(key, value)]
  | (k, v) :: rest =>
      if key = k then (key, value) :: rest
      else if key < k then (key, value) :: (k, v) :: rest
      else (k, v) :: place key value rest

/-- The newest value of a key wins. -/
def insert (t : Table α) (key : String) (value : α) : Table α :=
  ⟨place key value t.entries⟩

/-- An older value of the key stays. -/
def insertNew (t : Table α) (key : String) (value : α) : Table α :=
  if t.contains key then t else t.insert key value

def erase (t : Table α) (key : String) : Table α :=
  ⟨t.entries.filter fun entry => entry.1 ≠ key⟩

/-- Entries given in any order; of two with the same key the later one counts. -/
def ofList (entries : List (String × α)) : Table α :=
  entries.foldl (fun t entry => t.insert entry.1 entry.2) ∅

/-- The entries of `t`, and those of `other` under keys that `t` lacks. -/
def orElse (t other : Table α) : Table α :=
  other.entries.foldl (fun t entry => t.insertNew entry.1 entry.2) t

end Table

end ResourceLint
