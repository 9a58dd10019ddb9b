import Mus.Syntax.Basic

/-! The size of a syntax tree: a bound on how many evaluations and executions
stand within each other when a tree without loops and calls is run. What stands
in a list counts as nested, one item within the next. -/
namespace Mus

mutual

/-- The size of an expression. The items of a literal are not evaluated. -/
def Expr.size : Expr → Nat
  | .binary left _ right => left.size + right.size + 1
  | .unary _ right => right.size + 1
  | .call callee arguments _ => callee.size + Expr.sizeAll arguments + 2
  | .get object _ _ => object.size + 1
  | .set object _ value _ => object.size + value.size + 2
  | .base | .stray _ | .literal .. | .variable .. | .this _ | .super .. => 1

def Expr.sizeAll : List Expr → Nat
  | [] => 1
  | e :: rest => e.size + Expr.sizeAll rest + 1

end

def Expr.size? : Option Expr → Nat
  | none => 1
  | some e => e.size + 1

def VarDecl.sizeAll : List VarDecl → Nat
  | [] => 1
  | decl :: rest => Expr.size? decl.initializer + VarDecl.sizeAll rest + 1

mutual

/-- The size of a statement. The body of a function is not executed where it is
declared. -/
def Stmt.size : Stmt → Nat
  | .expression e => e.size + 1
  | .varDecl decl => Expr.size? decl.initializer + 1
  | .classDecl _ _ fields _ _ => VarDecl.sizeAll fields + 2
  | .block body => Stmt.sizeAll body + 1
  | .branch condition thenBranch elseBranch =>
      condition.size + thenBranch.size + Stmt.size? elseBranch + 1
  | .loop condition body => condition.size + body.size + 2
  | .each _ iterable body => iterable.size + body.size + 2
  | .ret value _ => Expr.size? value + 1
  | .base | .stray _ | .funDecl _ => 1

def Stmt.size? : Option Stmt → Nat
  | none => 1
  | some stmt => stmt.size

def Stmt.sizeAll : List Stmt → Nat
  | [] => 1
  | stmt :: rest => stmt.size + Stmt.sizeAll rest + 1

end

end Mus
