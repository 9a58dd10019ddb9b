import Mus.Line.Conversion
import Mus.Line.Shape
import Mus.Line.State

/-! Carrying out lines. -/
namespace Mus.Line

open Mus.Text

/-- A step in carrying out a line. What a step has changed stays changed when it
fails. -/
abbrev Run := EStateM Fault State

namespace Run

def complain {α : Type} (complaint : Complaint) (line : Int) : Run α :=
  throw (.complaint complaint line)

def print (channel : Channel) (text : String) : Run Unit :=
  modify (·.print channel text)

def shown (value : Value) : Run String := do
  match (← get).store.shown value with
  | .ok text => return text
  | .error fault => throw (.text fault)

def printLine (text : String) : Run Unit := print .output (text ++ "\n")

/-- Prints values after others, each after a space, and ends the line. -/
def printAfter (channel : Channel) : List Value → Run Unit
  | [] => print channel "\n"
  | value :: rest => do
      print channel " "
      print channel (← shown value)
      printAfter channel rest

/-- Prints values with spaces between them and ends the line. -/
def printAll (channel : Channel) : List Value → Run Unit
  | [] => print channel "\n"
  | value :: rest => do
      print channel (← shown value)
      printAfter channel rest

/-- Evaluates an expression and notes that it was asked for. -/
def evaluate (evaluator : Evaluator) (expression : String) (line : Int) : Run Value :=
  fun state =>
    let (value, store) := evaluator expression line state
    .ok value { state with store := store, asked := state.asked ++ [(expression, line)] }

def evaluateAll (evaluator : Evaluator) (line : Int) : List String → Run (List Value)
  | [] => return []
  | expression :: rest => do
      let value ← evaluate evaluator expression line
      return value :: (← evaluateAll evaluator line rest)

/-- Fails where a type keeps a value out of a variable. -/
def checkAssignable (type : String) (value : Value) (line : Int) : Run Unit :=
  match assignmentBar? type value with
  | some target => complain (.notAssignable value.typeName target) line
  | none => return ()

def convert (value : Value) (type : String) (line : Int) : Run Value := do
  match Line.convert (← get).store value type line with
  | .ok value => return value
  | .error fault => throw fault

/-- Is a line a debug command, blanks at its start aside? -/
def isDebug (line : String) : Bool :=
  (Shape.after? "debug(" (stripBlanks line.toList)).isSome

/-- Carries out the declaration of a variable. A debug command is passed over. -/
def declaration (evaluator : Evaluator) (text : String) (line : Int) : Run Unit := do
  if isDebug text then
    printLine ("[DEBUG] Skipping debug command in variable declaration: " ++ text)
  else
    match Shape.declaration? text with
    | none => complain (.invalidDeclaration text) line
    | some ⟨name, type, expression⟩ =>
        let value ← evaluate evaluator expression line
        checkAssignable type value line
        modify (·.declare name type value)

def output (evaluator : Evaluator) (text : String) (line : Int) : Run Unit := do
  match Shape.command? "out" text with
  | none => complain (.invalidOutput text) line
  | some argument =>
      let value ← evaluate evaluator (Shape.trimmed argument) line
      printLine (← shown value)

def paramsText (params : Params) : String :=
  joined ", " (params.map fun param => param.1 ++ " => " ++ param.2)

def listFields (indent : String) : Table (String × Value) → Run Unit
  | [] => return ()
  | (name, type, value) :: rest => do
      printLine (indent ++ name ++ " => " ++ type ++ " = " ++ (← shown value))
      listFields indent rest

def listParams (indent : String) : Table Params → Run Unit
  | [] => return ()
  | (name, params) :: rest => do
      printLine (indent ++ name ++ "(" ++ paramsText params ++ ")")
      listParams indent rest

def listClasses : Table ClassDef → Run Unit
  | [] => return ()
  | (name, classDef) :: rest => do
      printLine ("  " ++ name)
      match classDef.parent with
      | some parent => if parent ≠ "" then printLine ("    extends " ++ parent)
      | none => pure ()
      printLine "    Fields:"
      listFields "      " classDef.fields
      printLine "    Methods:"
      listParams "      " classDef.methods
      listClasses rest

/-- Prints a heading and a list below it, or that the list is empty. -/
def listUnder (heading what : String) (empty : Bool) (steps : Run Unit) : Run Unit := do
  printLine ("\n" ++ heading ++ ":")
  if empty then printLine ("  No " ++ what ++ " defined yet") else steps

/-- Carries out a debug command: it lists what the innermost scope holds. -/
def debug (text : String) (line : Int) : Run Unit := do
  match Shape.command? "debug" text with
  | none => complain (.invalidDebug text) line
  | some argument =>
      let scope := (← get).inner
      let command := Shape.trimmed argument
      if command = "vars" then
        listUnder "Variables" "variables" scope.bindings.isEmpty (listFields "  " scope.bindings)
      else if command = "funcs" then
        listUnder "Functions" "functions" scope.functions.isEmpty
          (listParams "  " (scope.functions.map fun entry => (entry.1, entry.2.params)))
      else if command = "classes" then
        listUnder "Classes" "classes" scope.classes.isEmpty (listClasses scope.classes)
      else complain (.unknownDebug command) line

/-- The value of a variable that is declared as an array. -/
def arrayVariable (name : String) (line : Int) : Run (String × Value) := do
  match lookUp (← get).scopes name with
  | none => complain (.arrayMissing name) line
  | some (type, value) =>
      if isArrayType type then return (type, value) else complain (.notArray name) line

/-- Changes the items of a list. A list in a cell changes for all that share
it. -/
def changeItems (name operation : String) (value : Value)
    (change : List Value → List Value) : Run Unit := do
  match value with
  | .list (.cell place) =>
      modify fun state => { state with store := state.store.changeCell place change }
  | .list (.constant items) =>
      modify fun state =>
        { state with scopes := assign name (.list (.constant (change items))) state.scopes }
  | other => throw (.unsupported other.typeName operation)

def push (evaluator : Evaluator) (name expression : String) (line : Int) : Run Unit := do
  let (type, array) ← arrayVariable name line
  let value ← evaluate evaluator expression line
  let value ← convert value (elementType type) line
  changeItems name "append" array (· ++ [value])

def isEmpty (store : Store) : Value → Bool
  | .nothing => true
  | .bool b => !b
  | .int n => n == 0
  | .float x => x == 0
  | .str text => text.isEmpty
  | .list items => (store.items items).isEmpty
  | _ => false

/-- Drops the last value of an array. -/
def pop (name : String) (line : Int) : Run Unit := do
  let (_, array) ← arrayVariable name line
  if isEmpty (← get).store array then complain .emptyArray line
  else changeItems name "pop" array List.dropLast

/-- Carries out an operation on an array. No for any other line. Reading an
element or the length does nothing. -/
def arrayOperation (evaluator : Evaluator) (text : String) (line : Int) : Run Bool := do
  if Shape.isAccess text then return true
  else
    match Shape.push? text with
    | some (name, expression) =>
        push evaluator name expression line
        return true
    | none =>
        match Shape.pop? text with
        | some name =>
            pop name line
            return true
        | none => return Shape.isLength text

/-- Carries out an operation on a text. No for any other line. The only one,
reading the length, does nothing. -/
def stringOperation (text : String) : Bool := Shape.isLength text

def assignment (evaluator : Evaluator) (name expression : String) (line : Int) : Run Unit := do
  match lookUp (← get).scopes name with
  | none => complain (.variableMissing name) line
  | some (type, _) =>
      let value ← evaluate evaluator expression line
      checkAssignable type value line
      modify fun state => { state with scopes := assign name value state.scopes }

def arguments (evaluator : Evaluator) (text : String) (line : Int) : Run (List Value) :=
  if Shape.trimmed text = "" then return []
  else evaluateAll evaluator line ((Shape.commaParts text).map Shape.trimmed)

/-- Carries out a statement, where `call` calls functions. No for a line that is
no statement. -/
def statementWith (evaluator : Evaluator) (call : String → List Value → Int → Run Value)
    (text : String) (line : Int) : Run Bool := do
  match Shape.assignment? text with
  | some (name, expression) =>
      assignment evaluator name expression line
      return true
  | none =>
      match Shape.call? text with
      | some (name, argumentText) =>
          let values ← arguments evaluator argumentText line
          let _ ← call name values line
          return true
      | none => return (← arrayOperation evaluator text line) || stringOperation text

/-- Runs steps in a new innermost scope, which is gone however they end. -/
def inNewScope {α : Type} (scope : Scope) (steps : Run α) : Run α := fun state =>
  match steps { state with scopes := scope :: state.scopes } with
  | .ok result after => .ok result { after with scopes := after.scopes.tail }
  | .error fault after => .error fault { after with scopes := after.scopes.tail }

/-- The scope of a call: the parameters with the values of the arguments. -/
def callScope (params : Params) (values : List Value) : Scope :=
  { bindings := (params.zip values).foldl
      (fun table entry => table.insert entry.1.1 (entry.1.2, entry.2)) [] }

/-- Runs the lines of a body up to the first that returns a value. -/
def body (evaluator : Evaluator) (statement : String → Run Bool) (line : Int) :
    List String → Run Value
  | [] => return .nothing
  | text :: rest => do
      let text := Shape.trimmed text
      match Shape.returned? text with
      | some expression => evaluate evaluator expression line
      | none =>
          let _ ← statement text
          body evaluator statement line rest

/-- Calls a function, where calls may nest to a given depth. The functions that
print are called first, whatever the scopes hold. -/
def callFunction (evaluator : Evaluator) : Nat → String → List Value → Int → Run Value
  | depth, name, values, line => do
      if name = "out" then
        printAll .output values
        return .nothing
      else if name = "error" then
        printAll .errors values
        return .nothing
      else if name = "warn" then
        print .errors "Warning:"
        printAfter .errors values
        return .nothing
      else
        match (← get).function? name with
        | none => complain (.functionMissing name) line
        | some function =>
            if values.length ≠ function.params.length then
              complain (.argumentCount name function.params.length values.length) line
            else
              match depth with
              | 0 => throw .tooDeep
              | depth + 1 =>
                  inNewScope (callScope function.params values)
                    (body evaluator
                      (fun text => statementWith evaluator (callFunction evaluator depth) text line)
                      line function.body)

def callLimit : Nat := 300

def call (evaluator : Evaluator) (name : String) (values : List Value) (line : Int) : Run Value :=
  callFunction evaluator callLimit name values line

/-- Carries out a statement. No for a line that is no statement. -/
def statement (evaluator : Evaluator) (text : String) (line : Int) : Run Bool :=
  statementWith evaluator (call evaluator) text line

end Run

end Mus.Line
