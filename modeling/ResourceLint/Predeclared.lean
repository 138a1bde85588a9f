/-!
# Predeclared names

Names every module sees without declaring or importing them, and the category of values that
the names of basic types stand for.
-/

namespace ResourceLint.Predeclared

def types : List String :=
  ["any", "bool", "byte", "comparable", "complex64", "complex128", "error", "float32", "float64",
    "int", "int8", "int16", "int32", "int64", "rune", "string", "uint", "uint8", "uint16", "uint32",
    "uint64", "uintptr"]

def constants : List String :=
  ["true", "false", "iota", "nil"]

def functions : List String :=
  ["append", "cap", "clear", "close", "complex", "copy", "delete", "imag", "len", "make", "max",
    "min", "new", "panic", "print", "println", "real", "recover"]

def isFunction (name : String) : Bool :=
  functions.contains name

def contains (name : String) : Bool :=
  types.contains name || constants.contains name || isFunction name

/-- One name for all widths of a number type, and for the truth values. -/
def canonical? (name : String) : Option String :=
  match name with
  | "float" | "float64" | "float32" => some "float"
  | "int" | "int64" | "int32" => some "int"
  | "bool" | "true" | "false" => some "bool"
  | _ => none

end ResourceLint.Predeclared
