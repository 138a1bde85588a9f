/-!
# Places in source files

Files are known by number; their display paths stand in one list, the path of file `n` at
position `n`.
-/

namespace ResourceLint

structure Span where
  file : Nat
  line : Nat
  start : Nat
  stop : Nat
  deriving DecidableEq, Repr, Inhabited

namespace Span

/-- The place of everything that has no place of its own. -/
def zero : Span := ⟨0, 0, 0, 0⟩

/-- A span that ends before it starts has no length. -/
def length (s : Span) : Nat :=
  s.stop - s.start

def isEmpty (s : Span) : Bool :=
  s.length == 0

end Span

/-- File and line of a finding; columns are never shown. -/
structure Location where
  path : String
  line : Nat
  deriving DecidableEq, Repr, Inhabited

def Location.show (loc : Location) : String :=
  s!"{loc.path}:{loc.line}"

/-- Display paths by file number. -/
abbrev SourcePaths := List String

namespace SourcePaths

def path? (paths : SourcePaths) (file : Nat) : Option String :=
  paths[file]?

/-- Files without a display path are shown by their number. -/
def location (paths : SourcePaths) (s : Span) : Location :=
  ⟨(paths.path? s.file).getD s!"<file #{s.file}>", s.line⟩

end SourcePaths

end ResourceLint
