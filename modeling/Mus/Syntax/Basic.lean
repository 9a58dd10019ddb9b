import Mus.Token.Kind

/-! Tokens, expressions, statements and the values that programs compute.
An expression is itself a value: an array literal evaluates to the list of its
elements unevaluated. Hence the four types of the first block are defined
together. -/
namespace Mus

/-- The wrappers for a number, a text and a truth value. -/
inductive BoxKind where
  | integer | string | boolean
  deriving DecidableEq, Repr

/-- Where an expression is expected and a statement stands, its kind. -/
inductive StmtKind where
  | base | expression | varDecl | funDecl | classDecl | block | branch | loop | each | ret
  deriving DecidableEq, Repr

mutual

/-- A value. Functions, classes and objects live in a store and are named by
their place in it. -/
inductive Value where
  | nothing
  | bool (b : Bool)
  | int (n : Int)
  | float (x : Float)
  | str (s : String)
  | list (items : Items)
  | array (items : Items) (element : String)
  | box (kind : BoxKind) (inner : Value)
  | function (place : Nat)
  | classDef (place : Nat)
  | object (place : Nat)
  | code (e : Expr)

/-- The items of a list: written out, as in a syntax tree, or kept in a cell of
the store, where all who hold the cell see the same items. -/
inductive Items where
  | constant (values : List Value)
  | cell (place : Nat)

/-- A token of the source with the value of its literal and the place where it
starts. -/
structure Token where
  kind : TokenKind
  lexeme : String
  literal : Value
  line : Int
  column : Int

/-- An expression. `base` is the expression of no kind; `stray` marks a place
where a statement stands instead of an expression. -/
inductive Expr where
  | base
  | stray (kind : StmtKind)
  | literal (value : Value) (token : Token)
  | variable (name : String) (token : Token)
  | this (token : Token)
  | super (method : String) (token : Token)
  | binary (left : Expr) (operator : Token) (right : Expr)
  | unary (operator : Token) (right : Expr)
  | call (callee : Expr) (arguments : List Expr) (token : Token)
  | get (object : Expr) (name : String) (token : Token)
  | set (object : Expr) (name : String) (value : Expr) (token : Token)

end

instance : Inhabited Value := ⟨.nothing⟩

instance : Inhabited Token := ⟨⟨.eof, "", .nothing, 0, 0⟩⟩

instance : Inhabited Expr := ⟨.base⟩

abbrev Params := List (String × String)

structure VarDecl where
  name : String
  typeName : String
  initializer : Option Expr
  token : Token
  deriving Inhabited

mutual

structure FunDecl where
  name : String
  params : Params
  body : List Stmt
  token : Token

/-- A statement. `base` is the statement of no kind; `stray` marks a place where
an expression stands instead of a statement. -/
inductive Stmt where
  | base
  | stray (e : Expr)
  | expression (e : Expr)
  | varDecl (decl : VarDecl)
  | funDecl (decl : FunDecl)
  | classDecl (name : String) (superclass : Option String) (fields : List VarDecl)
      (methods : List FunDecl) (token : Token)
  | block (body : List Stmt)
  | branch (condition : Expr) (thenBranch : Stmt) (elseBranch : Option Stmt)
  | loop (condition : Expr) (body : Stmt)
  | each (iterator : String) (iterable : Expr) (body : Stmt)
  | ret (value : Option Expr) (token : Token)

end

instance : Inhabited Stmt := ⟨.base⟩

/-- The token reported where no token of the source is at fault. -/
def Token.nowhere : Token := ⟨.eof, "", .nothing, 0, 0⟩

end Mus
