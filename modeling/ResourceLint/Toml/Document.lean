import ResourceLint.Toml.Token
import ResourceLint.Toml.Value

/-!
# Documents

Reading the tokens of a settings file as one table. Every reader returns what it has read and the
tokens that follow. A line holds a key with its value, or the
header of the table to which the following keys belong.
-/

namespace ResourceLint.Toml

open Token

def simpleKey? : List Token → Option (String × List Token)
  | .word text :: rest => some (text, rest)
  | .quoted text false :: rest => some (text, rest)
  | _ => none

/-- Keys with dots between them. -/
def dottedKey? : List Token → Option (List String × List Token)
  | .word key :: .dot :: rest => do
      let (keys, rest) ← dottedKey? rest
      return (key :: keys, rest)
  | .quoted key false :: .dot :: rest => do
      let (keys, rest) ← dottedKey? rest
      return (key :: keys, rest)
  | tokens => do
      let (key, rest) ← simpleKey? tokens
      return ([key], rest)

def skipNewlines : List Token → List Token
  | .newline :: rest => skipNewlines rest
  | tokens => tokens

mutual

/-- A value, read from at most `fuel` tokens. -/
def value? (fuel : Nat) : List Token → Option (Value × List Token)
  | .quoted text _ :: rest => some (.text text, rest)
  | .openBracket :: rest =>
      match fuel with
      | 0 => none
      | fuel + 1 => do
          let (items, rest) ← items? fuel (skipNewlines rest)
          return (.list items, rest)
  | .openBrace :: .closeBrace :: rest => some (.table .inline ∅, rest)
  | .openBrace :: rest =>
      match fuel with
      | 0 => none
      | fuel + 1 => do
          let (entries, rest) ← entries? fuel ∅ rest
          return (.table .inline entries, rest)
  | _ => none

/-- The rest of a list. Its items may stand on several lines, and a comma may follow the last. -/
def items? (fuel : Nat) (tokens : List Token) : Option (List Value × List Token) :=
  match tokens with
  | .closeBracket :: rest => some ([], rest)
  | _ =>
      match fuel with
      | 0 => none
      | fuel + 1 => do
          let (item, rest) ← value? fuel tokens
          match skipNewlines rest with
          | .closeBracket :: rest => return ([item], rest)
          | .comma :: rest =>
              let (items, rest) ← items? fuel (skipNewlines rest)
              return (item :: items, rest)
          | _ => none

/-- The rest of a table in braces that has at least one more entry. -/
def entries? (fuel : Nat) (t : Table Value) (tokens : List Token) :
    Option (Table Value × List Token) :=
  match fuel with
  | 0 => none
  | fuel + 1 => do
      match ← dottedKey? tokens with
      | (keys, .equals :: rest) =>
          let (value, rest) ← value? fuel rest
          let t ← Value.put keys value t
          match rest with
          | .closeBrace :: rest => return (t, rest)
          | .comma :: rest => entries? fuel t rest
          | _ => none
      | _ => none

end

/-- What has been read of a document: all of it, and the path of the table that keys go to. -/
structure Reading where
  root : Table Value
  path : List String

/-- Nothing follows on the same line. -/
def lineEnd? : List Token → Option (List Token)
  | [] => some []
  | .newline :: rest => some rest
  | _ => none

/-- Read one line that is not empty. -/
def line? (reading : Reading) (tokens : List Token) : Option (Reading × List Token) :=
  match tokens with
  | .openBracket :: rest => do
      match ← dottedKey? rest with
      | (path, .closeBracket :: rest) =>
          let root ← Value.begin path reading.root
          return (⟨root, path⟩, ← lineEnd? rest)
      | _ => none
  | _ => do
      match ← dottedKey? tokens with
      | (keys, .equals :: rest) =>
          let (value, rest) ← value? rest.length rest
          let root ← Value.putAt reading.path keys value reading.root
          return ({ reading with root }, ← lineEnd? rest)
      | _ => none

/-- Read at most that many lines. -/
def lines? : Nat → Reading → List Token → Option (Table Value)
  | _, reading, [] => some reading.root
  | 0, _, _ => none
  | n + 1, reading, .newline :: rest => lines? n reading rest
  | n + 1, reading, tokens => do
      let (reading, rest) ← line? reading tokens
      lines? n reading rest

/-- The table that a settings file holds. -/
def document? (text : String) : Option (Table Value) := do
  let tokens ← Token.ofText? text
  lines? tokens.length ⟨∅, []⟩ tokens

end ResourceLint.Toml
