import Mus.Store.Object
import Mus.Syntax.StmtDescription

/-! Texts of values that live in the store. What is met again inside its own
description is cut short; what is met again in what a program prints has no
text. -/
namespace Mus.Store

open Mus.Text

/-- What a description may meet again: a place of one of the parts of the store,
or an array on a cell. -/
inductive Place where
  | scope (place : Nat)
  | function (place : Nat)
  | classDef (place : Nat)
  | object (place : Nat)
  | cell (place : Nat)
  | array (place : Nat) (element : String)
  deriving DecidableEq, Repr

/-- How deep texts and comparisons of values may nest. -/
def depthLimit : Nat := 1000

def functionText (function : Function) : String :=
  "fun " ++ function.name ++ "(" ++
    joined ", " (function.params.map fun param => param.1 ++ " => " ++ param.2) ++ ")"

def classText (classDef : ClassDef) : String :=
  "class " ++ classDef.name

/-- An object as a program prints it: its class and its address, which is always
written as zero. -/
def objectText (store : Store) (object : Nat) : String :=
  (store.classDef (store.object object).classDef).name ++ "@0"

/-- A function, class or object as a program prints it. -/
def shownAt (store : Store) : Value → String
  | .function place => functionText (store.function place)
  | .classDef place => classText (store.classDef place)
  | .object place => store.objectText place
  | _ => ""

def braced (entries : List (String × String)) : String :=
  "\x7b" ++ joined ", " (entries.map fun entry => quoted entry.1 ++ ": " ++ entry.2) ++ "\x7d"

def describeEntries {α : Type} (describe : α → Except TextFault String) :
    Table α → Except TextFault (List (String × String))
  | [] => .ok []
  | (name, entry) :: rest => do
      return (name, ← describe entry) :: (← describeEntries describe rest)

/-- Describes a type and a value as a pair. -/
def describePair (text : StoreText) (type : Option String) (value : Value) :
    Except TextFault String := do
  return "(" ++ describeOption (type.map quoted) ++ ", " ++ (← value.describe text) ++ ")"

mutual

/-- The texts of what lives in a store, inside the description of `path`. -/
def textWithin (store : Store) (path : List Place) : Nat → StoreText
  | 0 =>
      { listAt := fun _ => .error .tooDeep
        itemsAt := fun _ => .error .tooDeep
        arrayAt := fun _ _ => .error .tooDeep
        describeAt := fun _ => .error .tooDeep
        showAt := fun _ => .error .tooDeep }
  | depth + 1 =>
      { listAt := fun place =>
          if .cell place ∈ path then .ok "[...]"
          else do
            let text := store.textWithin (.cell place :: path) depth
            return bracketed (← Value.describeAll text (store.cell place))
        itemsAt := fun place => do
          return bracketed (← Value.shownAll (store.textWithin path depth) (store.cell place))
        arrayAt := fun place element =>
          if .array place element ∈ path then .ok "..."
          else do
            let text := store.textWithin (.array place element :: path) depth
            return arrayDescription (← text.listAt place) element
        describeAt := fun value => store.describePlace path value depth
        showAt := fun value => .ok (store.shownAt value) }

/-- The description of a function, class or object. -/
def describePlace (store : Store) (path : List Place) (value : Value) :
    Nat → Except TextFault String
  | 0 => .error .tooDeep
  | depth + 1 =>
      match value with
      | .function place =>
          if .function place ∈ path then .ok "..."
          else do
            let path := .function place :: path
            let text := store.textWithin path depth
            let function := store.function place
            return "MusFunction(name=" ++ quoted function.name ++
              ", params=" ++ describeParams function.params ++
              ", body=" ++ bracketed (← Stmt.describeAll text function.body) ++
              ", closure=" ++ (← store.describeScope path function.closure depth) ++
              ", native_fn=" ++ (if function.builtin.isSome then "<function>" else "None") ++ ")"
      | .classDef place =>
          if .classDef place ∈ path then .ok "..."
          else do
            let path := .classDef place :: path
            let text := store.textWithin path depth
            let classDef := store.classDef place
            let fields ← describeEntries (fun field => describePair text (some field.1) field.2)
              classDef.fields
            let methods ← describeEntries (fun method => text.describeAt (.function method))
              classDef.methods
            let parent ← match classDef.parent with
              | some parent => text.describeAt (.classDef parent)
              | none => .ok "None"
            return "MusClass(name=" ++ quoted classDef.name ++ ", fields=" ++ braced fields ++
              ", methods=" ++ braced methods ++ ", parent=" ++ parent ++
              ", environment=" ++ (← store.describeScope path classDef.scope depth) ++ ")"
      | .object place =>
          if .object place ∈ path then .ok "..."
          else do
            let path := .object place :: path
            let text := store.textWithin path depth
            let object := store.object place
            let fields ← describeEntries (fun value => value.describe text) object.fields
            return "MusObject(class_def=" ++ (← text.describeAt (.classDef object.classDef)) ++
              ", fields=" ++ braced fields ++
              ", environment=" ++ (← store.describeScope path object.scope depth) ++ ")"
      | _ => .ok "..."

def describeScope (store : Store) (path : List Place) (place : Option Nat) :
    Nat → Except TextFault String
  | 0 => .error .tooDeep
  | depth + 1 =>
      match place with
      | none => .ok "None"
      | some place =>
          if .scope place ∈ path then .ok "..."
          else do
            let path := .scope place :: path
            let text := store.textWithin path depth
            let scope := store.scope place
            let bindings ← describeEntries (fun entry => describePair text entry.1 entry.2)
              scope.bindings
            let functions ← describeEntries (fun function => text.describeAt (.function function))
              scope.functions
            let classes ← describeEntries (fun classDef => text.describeAt (.classDef classDef))
              scope.classes
            return "Environment(parent=" ++ (← store.describeScope path scope.parent depth) ++
              ", variables=" ++ braced bindings ++ ", functions=" ++ braced functions ++
              ", classes=" ++ braced classes ++ ")"

end

/-- The texts of what lives in a store. -/
def text (store : Store) : StoreText := store.textWithin [] depthLimit

def shown (store : Store) (value : Value) : Except TextFault String :=
  value.shown store.text

end Mus.Store
