import Mus.Syntax.Description

/-! Descriptions of statements. -/
namespace Mus

open Mus.Text

/-- The description of what may be missing. -/
def describeOption (text : Option String) : String :=
  text.getD "None"

def describeParams (params : Params) : String :=
  bracketed (params.map fun param => "(" ++ quoted param.1 ++ ", " ++ quoted param.2 ++ ")")

/-- The description of an expression that may be missing. -/
def describeExpr? (store : StoreText) : Option Expr → Except TextFault String
  | none => .ok "None"
  | some e => e.describe store

def VarDecl.describe (store : StoreText) (decl : VarDecl) : Except TextFault String := do
  return "VarDeclaration(name=" ++ quoted decl.name ++ ", type_name=" ++ quoted decl.typeName ++
    ", initializer=" ++ (← describeExpr? store decl.initializer) ++
    ", token=" ++ (← decl.token.describe store) ++ ")"

mutual

def FunDecl.describe (store : StoreText) : FunDecl → Except TextFault String
  | ⟨name, params, body, token⟩ => do
      return "FunctionDeclaration(name=" ++ quoted name ++ ", params=" ++ describeParams params ++
        ", body=" ++ bracketed (← Stmt.describeAll store body) ++
        ", token=" ++ (← token.describe store) ++ ")"

def FunDecl.describeAll (store : StoreText) : List FunDecl → Except TextFault (List String)
  | [] => .ok []
  | decl :: rest => do return (← decl.describe store) :: (← FunDecl.describeAll store rest)

def Stmt.describe (store : StoreText) : Stmt → Except TextFault String
  | .base => .ok "Statement()"
  | .stray e => e.describe store
  | .expression e => do return "ExpressionStmt(expression=" ++ (← e.describe store) ++ ")"
  | .varDecl decl => decl.describe store
  | .funDecl decl => decl.describe store
  | .classDecl name superclass fields methods token => do
      let fieldTexts ← fields.mapM (VarDecl.describe store)
      return "ClassDeclaration(name=" ++ quoted name ++
        ", superclass=" ++ describeOption (superclass.map quoted) ++
        ", fields=" ++ bracketed fieldTexts ++
        ", methods=" ++ bracketed (← FunDecl.describeAll store methods) ++
        ", token=" ++ (← token.describe store) ++ ")"
  | .block body => do
      return "Block(statements=" ++ bracketed (← Stmt.describeAll store body) ++ ")"
  | .branch condition thenBranch elseBranch => do
      return "If(condition=" ++ (← condition.describe store) ++
        ", then_branch=" ++ (← thenBranch.describe store) ++
        ", else_branch=" ++ (← Stmt.describe? store elseBranch) ++ ")"
  | .loop condition body => do
      return "While(condition=" ++ (← condition.describe store) ++
        ", body=" ++ (← body.describe store) ++ ")"
  | .each iterator iterable body => do
      return "For(iterator=" ++ quoted iterator ++ ", iterable=" ++ (← iterable.describe store) ++
        ", body=" ++ (← body.describe store) ++ ")"
  | .ret value token => do
      return "Return(value=" ++ (← describeExpr? store value) ++
        ", token=" ++ (← token.describe store) ++ ")"

def Stmt.describe? (store : StoreText) : Option Stmt → Except TextFault String
  | none => .ok "None"
  | some stmt => stmt.describe store

def Stmt.describeAll (store : StoreText) : List Stmt → Except TextFault (List String)
  | [] => .ok []
  | stmt :: rest => do return (← stmt.describe store) :: (← Stmt.describeAll store rest)

end

end Mus
