/-!
# Tokens of settings files

Settings files are written in TOML. Their values are texts, lists and tables only, so this reader
knows no numbers, truth values and dates: a file that holds one is not a settings file, and its
tokens stop there. Blanks and comments separate tokens and are dropped; ends of lines are kept.
-/

namespace ResourceLint.Toml

inductive Token where
  | newline
  | equals
  | dot
  | comma
  | openBracket
  | closeBracket
  | openBrace
  | closeBrace
  /-- A key without quotation marks. -/
  | word (text : String)
  /-- A quoted text; keys cannot be texts that may run over several lines. -/
  | quoted (text : String) (multiline : Bool)
  deriving DecidableEq, Repr, Inhabited

namespace Token

def isBlank (c : Char) : Bool :=
  c == ' ' || c == '\t'

/-- Characters of keys without quotation marks. -/
def isWord (c : Char) : Bool :=
  c.isAlphanum || c == '_' || c == '-'

/-- Everything but control characters; tabs are allowed. -/
def isPlain (c : Char) : Bool :=
  c == '\t' || (0x20 ≤ c.toNat && c.toNat != 0x7f)

/-- A part of a text and what follows it. -/
abbrev Lexeme := List Char × List Char

def Lexeme.push (c : Char) (lexeme : Lexeme) : Lexeme :=
  (c :: lexeme.1, lexeme.2)

def hexDigit? (c : Char) : Option Nat :=
  if '0' ≤ c ∧ c ≤ '9' then some (c.toNat - '0'.toNat)
  else if 'a' ≤ c ∧ c ≤ 'f' then some (c.toNat - 'a'.toNat + 10)
  else if 'A' ≤ c ∧ c ≤ 'F' then some (c.toNat - 'A'.toNat + 10)
  else none

/-- The character whose code point the digits write. -/
def hexChar? (digits : List Char) : Option Char := do
  let values ← digits.mapM hexDigit?
  let n := values.foldl (fun n d => 16 * n + d) 0
  if n.isValidChar then some (Char.ofNat n) else none

/-- The character that an escape of one letter stands for. -/
def escaped? : Char → Option Char
  | 'b' => some '\x08'
  | 't' => some '\t'
  | 'n' => some '\n'
  | 'f' => some '\x0c'
  | 'r' => some '\r'
  | '"' => some '"'
  | '\\' => some '\\'
  | _ => none

/-- The rest of a text in quotation marks on one line. -/
def basic : List Char → Option Lexeme
  | [] => none
  | '"' :: rest => some ([], rest)
  | '\\' :: 'u' :: a :: b :: c :: d :: rest => do
      let char ← hexChar? [a, b, c, d]
      return (← basic rest).push char
  | '\\' :: 'U' :: a :: b :: c :: d :: e :: f :: g :: h :: rest => do
      let char ← hexChar? [a, b, c, d, e, f, g, h]
      return (← basic rest).push char
  | '\\' :: c :: rest => do
      let char ← escaped? c
      return (← basic rest).push char
  | c :: rest => if isPlain c && c != '\\' then (basic rest).map (Lexeme.push c) else none

/-- The rest of a text in apostrophes on one line; nothing is escaped in it. -/
def literal : List Char → Option Lexeme
  | [] => none
  | '\x27' :: rest => some ([], rest)
  | c :: rest => if isPlain c then (literal rest).map (Lexeme.push c) else none

/-- After the three marks that close a text, up to two more belong to the text. -/
def extraMarks (mark : Char) : List Char → Lexeme
  | c :: d :: rest =>
      if c = mark then
        if d = mark then ([mark, mark], rest) else ([mark], d :: rest)
      else ([], c :: d :: rest)
  | [c] => if c = mark then ([mark], []) else ([], [c])
  | [] => ([], [])

/-- Whether only blanks stand before the next end of line. -/
def endsLine (text : List Char) : Bool :=
  match text.dropWhile isBlank with
  | '\n' :: _ => true
  | '\r' :: '\n' :: _ => true
  | _ => false

/-- The rest of a text in triple quotation marks. A backslash at the end of a line drops the end
of the line and all blanks and ends of lines that follow; `skip` says that this is going on. -/
def multilineBasic (skip : Bool) : List Char → Option Lexeme
  | [] => none
  | '"' :: '"' :: '"' :: rest => some (extraMarks '"' rest)
  | '\n' :: rest =>
      if skip then multilineBasic true rest else (multilineBasic false rest).map (Lexeme.push '\n')
  | '\r' :: '\n' :: rest =>
      if skip then multilineBasic true rest else (multilineBasic false rest).map (Lexeme.push '\n')
  | '\\' :: 'u' :: a :: b :: c :: d :: rest => do
      let char ← hexChar? [a, b, c, d]
      return (← multilineBasic false rest).push char
  | '\\' :: 'U' :: a :: b :: c :: d :: e :: f :: g :: h :: rest => do
      let char ← hexChar? [a, b, c, d, e, f, g, h]
      return (← multilineBasic false rest).push char
  | '\\' :: c :: rest =>
      if endsLine (c :: rest) then multilineBasic true (c :: rest)
      else do
        let char ← escaped? c
        return (← multilineBasic false rest).push char
  | c :: rest =>
      if skip && isBlank c then multilineBasic true rest
      else if isPlain c && c != '\\' then (multilineBasic false rest).map (Lexeme.push c)
      else none

/-- The rest of a text in triple apostrophes. -/
def multilineLiteral : List Char → Option Lexeme
  | [] => none
  | '\x27' :: '\x27' :: '\x27' :: rest => some (extraMarks '\x27' rest)
  | '\n' :: rest => (multilineLiteral rest).map (Lexeme.push '\n')
  | '\r' :: '\n' :: rest => (multilineLiteral rest).map (Lexeme.push '\n')
  | c :: rest => if isPlain c then (multilineLiteral rest).map (Lexeme.push c) else none

/-- An end of line right after the opening marks is not part of the text. -/
def dropFirstNewline : List Char → List Char
  | '\n' :: rest => rest
  | '\r' :: '\n' :: rest => rest
  | text => text

/-- A comment runs to the end of its line and holds no control characters. -/
def afterComment? (text : List Char) : Option (List Char) :=
  match text.dropWhile isPlain with
  | [] => some []
  | '\n' :: rest => some ('\n' :: rest)
  | '\r' :: '\n' :: rest => some ('\r' :: '\n' :: rest)
  | _ => none

def ofLexeme (multiline : Bool) (lexeme : Lexeme) : Token × List Char :=
  (.quoted (String.ofList lexeme.1) multiline, lexeme.2)

/-- The token at the start of a text that starts with no blank and no comment. -/
def next? : List Char → Option (Token × List Char)
  | '\n' :: rest => some (.newline, rest)
  | '\r' :: '\n' :: rest => some (.newline, rest)
  | '=' :: rest => some (.equals, rest)
  | '.' :: rest => some (.dot, rest)
  | ',' :: rest => some (.comma, rest)
  | '[' :: rest => some (.openBracket, rest)
  | ']' :: rest => some (.closeBracket, rest)
  | '\x7b' :: rest => some (.openBrace, rest)
  | '\x7d' :: rest => some (.closeBrace, rest)
  | '"' :: '"' :: '"' :: rest =>
      (multilineBasic false (dropFirstNewline rest)).map (ofLexeme true)
  | '"' :: rest => (basic rest).map (ofLexeme false)
  | '\x27' :: '\x27' :: '\x27' :: rest =>
      (multilineLiteral (dropFirstNewline rest)).map (ofLexeme true)
  | '\x27' :: rest => (literal rest).map (ofLexeme false)
  | c :: rest =>
      if isWord c then
        some (.word (String.ofList ((c :: rest).takeWhile isWord)), rest.dropWhile isWord)
      else none
  | [] => none

/-- The tokens of a text of at most that many characters. -/
def scan : Nat → List Char → Option (List Token)
  | _, [] => some []
  | 0, _ => none
  | n + 1, c :: rest =>
      if isBlank c then scan n rest
      else if c = '#' then (afterComment? rest).bind (scan n)
      else do
        let (token, rest) ← next? (c :: rest)
        return token :: (← scan n rest)

/-- A mark of byte order at the start is no part of the text. -/
def dropByteOrderMark : List Char → List Char
  | '\uFEFF' :: rest => rest
  | text => text

/-- The tokens of a file, if it can be cut into tokens. -/
def ofText? (text : String) : Option (List Token) :=
  let chars := dropByteOrderMark text.toList
  scan chars.length chars

end Token

end ResourceLint.Toml
