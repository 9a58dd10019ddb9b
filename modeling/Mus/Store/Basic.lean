import Mus.Store.Table
import Mus.Syntax.Basic

/-! The store: scopes, functions, classes, objects and the cells of lists. Each
lives at a place that never changes. A new one gets a place beyond all others,
so what it refers to when it is made lies before it. -/
namespace Mus

/-- The functions that the language brings along. -/
inductive Builtin where
  | out | length
  deriving DecidableEq, Repr

/-- A scope: the enclosing scope and three name spaces. A variable has its
declared type, if any, and its value. -/
structure Scope where
  parent : Option Nat := none
  bindings : Table (Option String × Value) := []
  functions : Table Nat := []
  classes : Table Nat := []
  deriving Inhabited

structure Function where
  name : String
  params : Params
  body : List Stmt
  closure : Option Nat
  builtin : Option Builtin := none
  deriving Inhabited

/-- A class: its fields with their types and defaults, its methods, its parent
and the scope that it was declared in. -/
structure ClassDef where
  name : String
  fields : Table (String × Value)
  methods : Table Nat
  parent : Option Nat
  scope : Option Nat
  deriving Inhabited

/-- An object: its class, its fields and the scope that repeats what was written
to them. -/
structure Object where
  classDef : Nat
  fields : Table Value := []
  scope : Option Nat := none
  deriving Inhabited

/-- Everything that a running program can change or refer to. -/
structure Store where
  scopes : Array Scope := #[]
  functions : Array Function := #[]
  classes : Array ClassDef := #[]
  objects : Array Object := #[]
  cells : Array (List Value) := #[]
  deriving Inhabited

namespace Store

variable (store : Store)

def scope (place : Nat) : Scope := store.scopes[place]?.getD default

def function (place : Nat) : Function := store.functions[place]?.getD default

def classDef (place : Nat) : ClassDef := store.classes[place]?.getD default

def object (place : Nat) : Object := store.objects[place]?.getD default

def cell (place : Nat) : List Value := store.cells[place]?.getD []

def items : Items → List Value
  | .constant values => values
  | .cell place => store.cell place

def addScope (scope : Scope) : Nat × Store :=
  (store.scopes.size, { store with scopes := store.scopes.push scope })

def addFunction (function : Function) : Nat × Store :=
  (store.functions.size, { store with functions := store.functions.push function })

def addClass (classDef : ClassDef) : Nat × Store :=
  (store.classes.size, { store with classes := store.classes.push classDef })

def addObject (object : Object) : Nat × Store :=
  (store.objects.size, { store with objects := store.objects.push object })

def addCell (items : List Value) : Nat × Store :=
  (store.cells.size, { store with cells := store.cells.push items })

def changeScope (place : Nat) (change : Scope → Scope) : Store :=
  { store with scopes := store.scopes.modify place change }

def changeObject (place : Nat) (change : Object → Object) : Store :=
  { store with objects := store.objects.modify place change }

def changeCell (place : Nat) (change : List Value → List Value) : Store :=
  { store with cells := store.cells.modify place change }

/-- Sets one item of a list that is kept in a cell. -/
def setItem (items : Items) (index : Nat) (value : Value) : Store :=
  match items with
  | .constant _ => store
  | .cell place => store.changeCell place (·.set index value)

end Store

end Mus
