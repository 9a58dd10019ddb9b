import Mus.Line.Fault
import Mus.Store.Load
import Mus.Store.Text

/-! The state in which lines are carried out: the scopes, the lists that values
share, what has been printed and which expressions have been evaluated. -/
namespace Mus.Line

structure Function where
  name : String
  params : Params
  body : List String

/-- A class: its fields with their types and defaults, the parameters of its
methods and the name of its parent. -/
structure ClassDef where
  fields : Table (String × Value) := []
  methods : Table Params := []
  parent : Option String := none

/-- A scope: variables with their declared types and values, functions and
classes. -/
structure Scope where
  bindings : Table (String × Value) := []
  functions : Table Function := []
  classes : Table ClassDef := []
  deriving Inhabited

inductive Channel where
  | output | errors
  deriving DecidableEq, Repr

/-- The state: the scopes, innermost first, the store of the lists, what has been
printed, oldest first, and the expressions evaluated with their lines. -/
structure State where
  scopes : List Scope := [{}]
  store : Store := {}
  printed : List (Channel × String) := []
  asked : List (String × Int) := []

/-- The variable of a name in the innermost scope that has it. -/
def lookUp (scopes : List Scope) (name : String) : Option (String × Value) :=
  scopes.findSome? fun scope => scope.bindings.find? name

/-- Sets the value of a variable in the innermost scope that has it. -/
def assign (name : String) (value : Value) : List Scope → List Scope
  | [] => []
  | scope :: rest =>
      match scope.bindings.find? name with
      | some (type, _) =>
          { scope with bindings := scope.bindings.insert name (type, value) } :: rest
      | none => scope :: assign name value rest

def changeInner (change : Scope → Scope) : List Scope → List Scope
  | [] => []
  | scope :: rest => change scope :: rest

namespace State

def inner (state : State) : Scope := state.scopes.headD {}

/-- The function of a name in the innermost scope that has it. -/
def function? (state : State) (name : String) : Option Function :=
  state.scopes.findSome? fun scope => scope.functions.find? name

def declare (state : State) (name type : String) (value : Value) : State :=
  { state with
    scopes := changeInner
      (fun scope => { scope with bindings := scope.bindings.insert name (type, value) })
      state.scopes }

def addFunction (state : State) (function : Function) : State :=
  { state with
    scopes := changeInner
      (fun scope => { scope with functions := scope.functions.insert function.name function })
      state.scopes }

def addClass (state : State) (name : String) (classDef : ClassDef) : State :=
  { state with
    scopes := changeInner
      (fun scope => { scope with classes := scope.classes.insert name classDef }) state.scopes }

/-- Enters the functions that print. -/
def addBuiltins (state : State) : State :=
  let params : Params := [("message", "any")]
  ((state.addFunction ⟨"out", params, ["print(message)"]⟩).addFunction
    ⟨"error", params, ["print(message, file=sys.stderr)"]⟩).addFunction
    ⟨"warn", params, ["print(\x22Warning:\x22, message, file=sys.stderr)"]⟩

def print (state : State) (channel : Channel) (text : String) : State :=
  { state with printed := state.printed ++ [(channel, text)] }

def printedOn (state : State) (channel : Channel) : String :=
  String.join ((state.printed.filter (·.1 = channel)).map Prod.snd)

/-- The state with nothing printed and nothing asked yet. -/
def fresh (state : State) : State := { state with printed := [], asked := [] }

end State

/-- An evaluator of expressions: from an expression, its line and the state to a
value and the lists that it may have made. It changes nothing else. -/
abbrev Evaluator := String → Int → State → Value × Store

/-- The evaluator that knows the values of some expressions. Another expression
is the name of a variable, or else has the value that `otherwise` says. -/
def Evaluator.ofTable (known : Table Value) (otherwise : String → Value) : Evaluator :=
  fun expression _ state =>
    match known.find? expression with
    | some value => value.load state.store
    | none =>
        match lookUp state.scopes expression with
        | some (_, value) => (value, state.store)
        | none => (otherwise expression, state.store)

end Mus.Line
