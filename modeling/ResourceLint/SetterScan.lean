import ResourceLint.Text.Contents
import ResourceLint.Text.Lines

/-!
# Scanning source text for setters

Finds the keys of calls `d.Set("key", ...)` in plain text, without a syntax tree. A call counts
if its line is indented by a tab, something stands between the tab and the call, and something
follows the key. Of several calls in one line the last one counts.
-/

namespace ResourceLint.SetterScan

def isWord (c : Char) : Bool :=
  c.isAlphanum || c == '_'

/-- How a call starts, up to its key. -/
def opening : List Char :=
  "d.Set(\"".toList

/-- The key of a call at the start of the text, if more text follows the key. -/
def keyAt? (text : List Char) : Option (List Char) :=
  if opening.isPrefixOf text then
    let rest := text.drop opening.length
    match rest.takeWhile isWord, rest.dropWhile isWord with
    | c :: key, '"' :: _ :: _ => some (c :: key)
    | _, _ => none
  else none

/-- The key of the last call in the text. -/
def lastKey? : List Char → Option (List Char)
  | [] => none
  | c :: rest =>
      match lastKey? rest with
      | some key => some key
      | none => keyAt? (c :: rest)

/-- The key that a line sets. -/
def lineKey? : List Char → Option (List Char)
  | '\t' :: _ :: rest => lastKey? rest
  | _ => none

/-- The keys set in a source text, in the order of its lines. -/
def keys (source : String) : List String :=
  ((Text.lines source.toList).filterMap lineKey?).map String.ofList

/-- The keys set in a file, if it can be read. -/
def keysOfContents? (contents : Option ByteArray) : Option (List String) :=
  (Text.ofContents? contents).map keys

end ResourceLint.SetterScan
