import ResourceLint.Text.LastMark

/-!
# Qualified names

A name declared in module `owner` is written `owner.name`. Owners are import paths, so they may
hold dots and slashes themselves; only a dot after the last slash makes a name qualified.
-/

namespace ResourceLint.QualifiedName

/-- The part of a path after its last slash. -/
def lastPart (path : String) : String :=
  Text.afterLast '/' path

def isQualified (name : String) : Bool :=
  (lastPart name).toList.contains '.'

/-- Names with an owner already keep it, and an empty owner adds nothing. -/
def qualify (owner name : String) : String :=
  if owner.isEmpty then name
  else if isQualified name then name
  else owner ++ "." ++ name

/-- The bare name and its owner; `home` owns names that say nothing. -/
def split (name home : String) : String × String :=
  if isQualified name then (Text.afterLast '.' name, Text.beforeLast '.' name)
  else (name, home)

/-- What remains of a name without any owner. -/
def base (name : String) : String :=
  Text.afterLast '.' name

/-- The name a function goes by in its module: methods are qualified by their receiver's type. -/
def method (receiver : Option String) (name : String) : String :=
  match receiver with
  | some type => qualify type name
  | none => name

end ResourceLint.QualifiedName
