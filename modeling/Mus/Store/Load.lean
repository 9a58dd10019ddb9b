import Mus.Store.Basic

/-! Loading a syntax tree: the lists that are written out in its literals move
into cells of the store. From then on, evaluating a literal again yields the
same list, and what is written to it stays. The literals of tokens are only
shown and stay as they are. -/
namespace Mus

/-- Steps that add to a store. -/
abbrev Loading := StateM Store

/-- Moves items into a new cell. -/
def Loading.cell (items : List Value) : Loading Items := fun store =>
  let (place, store) := store.addCell items
  (.cell place, store)

mutual

/-- Loads a value. -/
def Value.load : Value → Loading Value
  | .list items => do return .list (← items.load)
  | .array items element => do return .array (← items.load) element
  | .box kind inner => do return .box kind (← inner.load)
  | .code e => do return .code (← e.load)
  | .nothing => pure .nothing
  | .bool b => pure (.bool b)
  | .int n => pure (.int n)
  | .float x => pure (.float x)
  | .str s => pure (.str s)
  | .function place => pure (.function place)
  | .classDef place => pure (.classDef place)
  | .object place => pure (.object place)

/-- Loads the items of a list. -/
def Items.load : Items → Loading Items
  | .constant values => do Loading.cell (← Value.loadAll values)
  | .cell place => pure (.cell place)

def Value.loadAll : List Value → Loading (List Value)
  | [] => pure []
  | value :: rest => do
      let value ← value.load
      return value :: (← Value.loadAll rest)

def Expr.load : Expr → Loading Expr
  | .literal value token => do return .literal (← value.load) token
  | .binary left operator right => do
      let left ← left.load
      return .binary left operator (← right.load)
  | .unary operator right => do return .unary operator (← right.load)
  | .call callee arguments token => do
      let callee ← callee.load
      return .call callee (← Expr.loadAll arguments) token
  | .get object name token => do return .get (← object.load) name token
  | .set object name value token => do
      let object ← object.load
      return .set object name (← value.load) token
  | .base => pure .base
  | .stray kind => pure (.stray kind)
  | .variable name token => pure (.variable name token)
  | .this token => pure (.this token)
  | .super method token => pure (.super method token)

def Expr.loadAll : List Expr → Loading (List Expr)
  | [] => pure []
  | e :: rest => do
      let e ← e.load
      return e :: (← Expr.loadAll rest)

end

def Expr.load? : Option Expr → Loading (Option Expr)
  | none => pure none
  | some e => do return some (← e.load)

def VarDecl.load (decl : VarDecl) : Loading VarDecl := do
  return { decl with initializer := ← Expr.load? decl.initializer }

def VarDecl.loadAll : List VarDecl → Loading (List VarDecl)
  | [] => pure []
  | decl :: rest => do
      let decl ← decl.load
      return decl :: (← VarDecl.loadAll rest)

mutual

def FunDecl.load : FunDecl → Loading FunDecl
  | ⟨name, params, body, token⟩ => do return ⟨name, params, ← Stmt.loadAll body, token⟩

def FunDecl.loadAll : List FunDecl → Loading (List FunDecl)
  | [] => pure []
  | decl :: rest => do
      let decl ← decl.load
      return decl :: (← FunDecl.loadAll rest)

def Stmt.load : Stmt → Loading Stmt
  | .base => pure .base
  | .stray e => do return .stray (← e.load)
  | .expression e => do return .expression (← e.load)
  | .varDecl decl => do return .varDecl (← decl.load)
  | .funDecl decl => do return .funDecl (← decl.load)
  | .classDecl name superclass fields methods token => do
      let fields ← VarDecl.loadAll fields
      return .classDecl name superclass fields (← FunDecl.loadAll methods) token
  | .block body => do return .block (← Stmt.loadAll body)
  | .branch condition thenBranch elseBranch => do
      let condition ← condition.load
      let thenBranch ← thenBranch.load
      return .branch condition thenBranch (← Stmt.load? elseBranch)
  | .loop condition body => do
      let condition ← condition.load
      return .loop condition (← body.load)
  | .each iterator iterable body => do
      let iterable ← iterable.load
      return .each iterator iterable (← body.load)
  | .ret value token => do return .ret (← Expr.load? value) token

def Stmt.load? : Option Stmt → Loading (Option Stmt)
  | none => pure none
  | some stmt => do return some (← stmt.load)

def Stmt.loadAll : List Stmt → Loading (List Stmt)
  | [] => pure []
  | stmt :: rest => do
      let stmt ← stmt.load
      return stmt :: (← Stmt.loadAll rest)

end

end Mus
