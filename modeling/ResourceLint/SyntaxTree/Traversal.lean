import ResourceLint.SyntaxTree

/-!
# Walks through syntax trees

A walk lists expressions before their parts and in source order. It does not enter the parts of
expressions at which it is told to stop. Types of struct fields, parameters and results are never
entered, nor are the declarations that identifiers are bound to.
-/

namespace ResourceLint

mutual

def Expr.walk (stop : Expr → Bool) : Expr → List Expr
  | ⟨span, node⟩ => ⟨span, node⟩ :: if stop ⟨span, node⟩ then [] else Node.walk stop node

def Node.walk (stop : Expr → Bool) : Node → List Expr
  | .selector x _ | .slice x | .star x | .unary _ x | .paren x => Expr.walk stop x
  | .call fn args => Expr.walk stop fn ++ Expr.walkAll stop args
  | .index x i => Expr.walk stop x ++ Expr.walk stop i
  | .binary _ x y => Expr.walk stop x ++ Expr.walk stop y
  | .typeAssert x type => Expr.walk stop x ++ Expr.walkOption stop type
  | .composite type elements => Expr.walkOption stop type ++ Expr.walkAll stop elements
  | .keyValue key value => Expr.walk stop key ++ Expr.walk stop value
  | .funcLit _ _ body => Stmt.walkAll stop body
  | .arrayType elem => Expr.walk stop elem
  | .mapType key value => Expr.walk stop key ++ Expr.walk stop value
  | .chanType _ value => Expr.walk stop value
  | .ellipsis elem => Expr.walkOption stop elem
  | .ident .. | .literal .. | .structType _ | .funcType .. | .interfaceType | .bad => []

def Expr.walkOption (stop : Expr → Bool) : Option Expr → List Expr
  | none => []
  | some e => Expr.walk stop e

def Expr.walkAll (stop : Expr → Bool) : List Expr → List Expr
  | [] => []
  | e :: es => Expr.walk stop e ++ Expr.walkAll stop es

def Assignment.walk (stop : Expr → Bool) : Assignment → List Expr
  | ⟨targets, values, _, _⟩ => Expr.walkAll stop targets ++ Expr.walkAll stop values

def ValueSpec.walk (stop : Expr → Bool) : ValueSpec → List Expr
  | ⟨_, type, values, _⟩ => Expr.walkOption stop type ++ Expr.walkAll stop values

def ValueSpec.walkAll (stop : Expr → Bool) : List ValueSpec → List Expr
  | [] => []
  | spec :: specs => ValueSpec.walk stop spec ++ ValueSpec.walkAll stop specs

def Clause.walk (stop : Expr → Bool) : Clause → List Expr
  | ⟨exprs, body⟩ => Expr.walkAll stop exprs ++ Stmt.walkAll stop body

def Clause.walkAll (stop : Expr → Bool) : List Clause → List Expr
  | [] => []
  | clause :: clauses => Clause.walk stop clause ++ Clause.walkAll stop clauses

def Stmt.walk (stop : Expr → Bool) : Stmt → List Expr
  | .expr x | .defer x | .go x | .incDec x => Expr.walk stop x
  | .assign stmt => Assignment.walk stop stmt
  | .var specs => ValueSpec.walkAll stop specs
  | .ret results => Expr.walkAll stop results
  | .ifElse init cond body otherwise =>
      Stmt.walkOption stop init ++ Expr.walk stop cond ++ Stmt.walkAll stop body ++
        Stmt.walkOption stop otherwise
  | .forLoop init cond post body =>
      Stmt.walkOption stop init ++ Expr.walkOption stop cond ++ Stmt.walkOption stop post ++
        Stmt.walkAll stop body
  | .rangeLoop key value x body =>
      Expr.walkOption stop key ++ Expr.walkOption stop value ++ Expr.walk stop x ++
        Stmt.walkAll stop body
  | .switch init tag clauses =>
      Stmt.walkOption stop init ++ Expr.walkOption stop tag ++ Clause.walkAll stop clauses
  | .block body => Stmt.walkAll stop body
  | .jump => []

def Stmt.walkOption (stop : Expr → Bool) : Option Stmt → List Expr
  | none => []
  | some s => Stmt.walk stop s

def Stmt.walkAll (stop : Expr → Bool) : List Stmt → List Expr
  | [] => []
  | s :: ss => Stmt.walk stop s ++ Stmt.walkAll stop ss

end

end ResourceLint
