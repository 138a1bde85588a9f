import ResourceLint.QualifiedName
import ResourceLint.Source

/-!
# Syntax trees

Expressions, statements and declarations of the checked programs. An identifier carries the
declaration its file binds it to, so following a binding is a step to a part of the tree;
identifiers without a binding are looked up by name.
-/

namespace ResourceLint

inductive LiteralKind where
  | int | float | imag | char | string
  /-- The keyword `map` standing alone. -/
  | map
  deriving DecidableEq, Repr, Inhabited

inductive UnaryOp where
  | addr | range | recv | not | neg | plus | xor
  deriving DecidableEq, Repr, Inhabited

inductive BinaryOp where
  | eq | ne | lt | le | gt | ge | logAnd | logOr
  | add | sub | mul | quo | rem | and | or | xor | shl | shr | andNot
  deriving DecidableEq, Repr, Inhabited

inductive ChanDir where
  | both | send | recv
  deriving DecidableEq, Repr, Inhabited

mutual

structure Expr where
  span : Span
  node : Node

inductive Node where
  | ident (name : String) (binding : Option Binding)
  | literal (kind : LiteralKind) (text : String)
  | selector (x : Expr) (sel : String)
  | call (fn : Expr) (args : List Expr)
  | index (x i : Expr)
  | slice (x : Expr)
  | star (x : Expr)
  | unary (op : UnaryOp) (x : Expr)
  | binary (op : BinaryOp) (x y : Expr)
  | paren (x : Expr)
  | typeAssert (x : Expr) (type : Option Expr)
  | composite (type : Option Expr) (elements : List Expr)
  | keyValue (key value : Expr)
  | funcLit (params results : List FieldGroup) (body : List Stmt)
  | arrayType (elem : Expr)
  | mapType (key value : Expr)
  | chanType (dir : ChanDir) (value : Expr)
  | structType (fields : List FieldGroup)
  | funcType (params results : List FieldGroup)
  | interfaceType
  | ellipsis (elem : Option Expr)
  /-- Source text that could not be read as an expression. -/
  | bad

/-- The declaration an identifier is bound to. -/
inductive Binding where
  | assign (stmt : Assignment)
  | type (decl : TypeDecl)
  | field (group : FieldGroup)
  | value (spec : ValueSpec)
  | func (decl : FuncDecl)

/-- Parameters, results or struct fields that share one type, as in `a, b int`. A group without
names is an unnamed parameter or an embedded field. -/
structure FieldGroup where
  names : List String
  type : Expr
  span : Span

structure TypeDecl where
  name : String
  type : Expr
  span : Span

structure ValueSpec where
  names : List String
  type : Option Expr
  values : List Expr
  span : Span

structure Assignment where
  targets : List Expr
  values : List Expr
  /-- Whether the statement also declares its targets. -/
  declares : Bool
  span : Span

structure Receiver where
  name : Option String
  type : Expr

structure FuncDecl where
  name : String
  receiver : Option Receiver
  params : List FieldGroup
  results : List FieldGroup
  body : List Stmt
  span : Span

inductive Stmt where
  | expr (x : Expr)
  | assign (stmt : Assignment)
  | var (specs : List ValueSpec)
  | ret (results : List Expr)
  | ifElse (init : Option Stmt) (cond : Expr) (body : List Stmt) (otherwise : Option Stmt)
  | forLoop (init : Option Stmt) (cond : Option Expr) (post : Option Stmt) (body : List Stmt)
  | rangeLoop (key value : Option Expr) (x : Expr) (body : List Stmt)
  | switch (init : Option Stmt) (tag : Option Expr) (clauses : List Clause)
  | block (body : List Stmt)
  | defer (x : Expr)
  | go (x : Expr)
  | incDec (x : Expr)
  /-- Leaves or repeats an enclosing statement; it has no parts. -/
  | jump

/-- One case of a switch. -/
structure Clause where
  exprs : List Expr
  body : List Stmt

end

instance : Inhabited Expr := ⟨⟨Span.zero, .bad⟩⟩

/-- Comparisons and logical connectives give truth values, whatever their operands are. -/
def BinaryOp.isTruthValued : BinaryOp → Bool
  | .eq | .ne | .lt | .le | .gt | .ge | .logAnd | .logOr => true
  | _ => false

def isQuotationMark (c : Char) : Bool :=
  c == '"' || c == '\x60'

/-- Without all the quotation marks at both ends. -/
def unquote (text : String) : String :=
  let rest := text.toList.dropWhile isQuotationMark
  String.ofList (rest.reverse.dropWhile isQuotationMark).reverse

namespace Expr

def identName? (e : Expr) : Option String :=
  match e.node with
  | .ident name _ => some name
  | _ => none

/-- The text of a string literal. -/
def stringText? (e : Expr) : Option String :=
  match e.node with
  | .literal .string text => some (unquote text)
  | _ => none

/-- The name of the type an expression refers to, seen through pointers, parentheses and type
arguments: `T`, `*T`, `T[K]` or `pkg.T`. -/
def typeName? : Expr → Option String
  | ⟨_, .ident name _⟩ => some name
  | ⟨_, .star x⟩ | ⟨_, .paren x⟩ | ⟨_, .index x _⟩ => x.typeName?
  | ⟨_, .selector x sel⟩ => x.typeName?.map fun owner => QualifiedName.qualify owner sel
  | _ => none

end Expr

namespace FieldGroup

def isUnnamed (g : FieldGroup) : Bool :=
  g.names.isEmpty

/-- How many parameters or results a group stands for. -/
def arity (g : FieldGroup) : Nat :=
  max g.names.length 1

end FieldGroup

/-- The field groups of a declaration of the form `type T struct { ... }`. -/
def TypeDecl.structGroups? (d : TypeDecl) : Option (List FieldGroup) :=
  match d.type.node with
  | .structType fields => some fields
  | _ => none

namespace FuncDecl

/-- One entry for each parameter, `none` for a parameter without a name. -/
def parameters (f : FuncDecl) : List (Option String) :=
  f.params.flatMap fun g => if g.isUnnamed then [none] else g.names.map some

/-- The name of the receiver's type, `some none` for a function without a receiver. There is no
answer when the receiver's type has no name. -/
def receiverType? (f : FuncDecl) : Option (Option String) :=
  match f.receiver with
  | none => some none
  | some receiver => receiver.type.typeName?.map some

end FuncDecl

end ResourceLint
