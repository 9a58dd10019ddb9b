import Mus.Store.Basic

/-! Names in scopes. A name is looked up in a scope and then in the scopes
around it. These are older, so that every look-up ends. -/
namespace Mus.Store

/-- The first entry found by `find` in a scope and the scopes around it. -/
def inScopes {α : Type} (store : Store) (find : Scope → Option α) (place : Nat) : Option α :=
  match find (store.scope place) with
  | some entry => some entry
  | none =>
      match (store.scope place).parent with
      | some parent => if parent < place then store.inScopes find parent else none
      | none => none
termination_by place

/-- The value of a variable; none where it is not bound. -/
def findVariable? (store : Store) (place : Nat) (name : String) : Option Value :=
  store.inScopes (fun scope => (scope.bindings.find? name).map Prod.snd) place

def function? (store : Store) (place : Nat) (name : String) : Option Nat :=
  store.inScopes (fun scope => scope.functions.find? name) place

def class? (store : Store) (place : Nat) (name : String) : Option Nat :=
  store.inScopes (fun scope => scope.classes.find? name) place

/-- What reading a variable yields: nothing where it is not bound. -/
def readVariable (store : Store) (place : Nat) (name : String) : Value :=
  (store.findVariable? place name).getD .nothing

def defineVariable (store : Store) (place : Nat) (name : String) (type : Option String)
    (value : Value) : Store :=
  store.changeScope place fun scope =>
    { scope with bindings := scope.bindings.insert name (type, value) }

/-- Sets a variable in the innermost scope that binds it and keeps its type.
None where no scope binds it. -/
def setVariable (store : Store) (place : Nat) (name : String) (value : Value) : Option Store :=
  match (store.scope place).bindings.find? name with
  | some (type, _) => some (store.defineVariable place name type value)
  | none =>
      match (store.scope place).parent with
      | some parent => if parent < place then store.setVariable parent name value else none
      | none => none
termination_by place

/-- The scope a number of steps out. None beyond the outermost. -/
def ancestor (store : Store) (place : Nat) : Nat → Option Nat
  | 0 => some place
  | distance + 1 =>
      match (store.scope place).parent with
      | some parent => store.ancestor parent distance
      | none => none

/-- What reading a variable yields from the scope a number of steps out. A
negative distance counts as zero. None beyond the outermost scope. -/
def readAt (store : Store) (place : Nat) (distance : Int) (name : String) : Option Value :=
  (store.ancestor place distance.toNat).map fun scope => store.readVariable scope name

/-- Declares a function in a scope, which becomes its closure. -/
def defineFunction (store : Store) (place : Nat) (name : String) (params : Params)
    (body : List Stmt) : Store :=
  let (function, store) := store.addFunction ⟨name, params, body, some place, none⟩
  store.changeScope place fun scope =>
    { scope with functions := scope.functions.insert name function }

def defineClass (store : Store) (place : Nat) (name : String) (fields : Table (String × Value))
    (methods : Table Nat) (parent : Option Nat) : Nat × Store :=
  let (classDef, store) := store.addClass ⟨name, fields, methods, parent, some place⟩
  (classDef, store.changeScope place fun scope =>
    { scope with classes := scope.classes.insert name classDef })

end Mus.Store
