import Mus.Machine.Fault
import Mus.Store.Equality
import Mus.Store.Load

/-! The machine that runs programs: the store, the global and the current scope,
the resolution table and what has been printed. The table says for a name in the
program how many scopes out its variable is. -/
namespace Mus

structure Machine where
  store : Store
  globals : Nat
  current : Nat
  locals : List (Expr × Int)
  output : String

/-- A step of a running program. What a step has changed stays changed when it
fails. -/
abbrev Run := EStateM Fault Machine

namespace Machine

/-- A machine before any program: the global scope holds the builtin functions,
under their names as functions and not as variables. -/
def initial : Machine :=
  let out : Function := ⟨"out", [("value", "any")], [], none, some .out⟩
  let length : Function := ⟨"length", [("array", "array")], [], none, some .length⟩
  { store :=
      { scopes := #[{ functions := [("out", 0), ("length", 1)] }]
        functions := #[out, length] }
    globals := 0
    current := 0
    locals := []
    output := "" }

def print (text : String) (machine : Machine) : Machine :=
  { machine with output := machine.output ++ text }

end Machine

namespace Run

def complain {α : Type} (complaint : Complaint) (token : Token) : Run α :=
  throw (.runtime ⟨complaint, token⟩)

def changeStore (change : Store → Store) : Run Unit :=
  modify fun machine => { machine with store := change machine.store }

/-- Changes the store with a result. -/
def withStore {α : Type} (change : Store → α × Store) : Run α := fun machine =>
  let (result, store) := change machine.store
  .ok result { machine with store := store }

/-- Adds a scope inside the current one. -/
def innerScope : Run Nat := do
  let machine ← get
  withStore fun store => store.addScope { parent := some machine.current }

/-- Runs steps with another scope as the current one, which comes back however
they end. -/
def inScope {α : Type} (scope : Nat) (steps : Run α) : Run α := fun machine =>
  match steps { machine with current := scope } with
  | .ok result after => .ok result { after with current := machine.current }
  | .error fault after => .error fault { after with current := machine.current }

def shown (value : Value) : Run String := do
  match (← get).store.shown value with
  | .ok text => return text
  | .error fault => throw (.text fault)

def shownScope (scope : Nat) : Run String := do
  match (← get).store.describeScope [] (some scope) Store.depthLimit with
  | .ok text => return text
  | .error fault => throw (.text fault)

/-- The distance noted for an expression in the resolution table. An expression
that holds what cannot be a key cannot be looked for. -/
def distance? (e : Expr) : Run (Option Int) := do
  match e.keyFault? with
  | some typeName => throw (.unhashable typeName)
  | none =>
      let machine ← get
      match machine.locals.find? fun entry =>
          machine.store.equalExpr Store.depthLimit entry.1 e == some true with
      | some (_, distance) => return some distance
      | none => return none

def resolve (e : Expr) (distance : Int) : Run Unit := do
  match ← distance? e with
  | some _ =>
      modify fun machine =>
        { machine with
          locals := machine.locals.map fun entry =>
            if machine.store.equalExpr Store.depthLimit entry.1 e == some true then
              (entry.1, distance)
            else entry }
  | none => modify fun machine => { machine with locals := machine.locals ++ [(e, distance)] }

/-- Notes one distance for each name of a source: identifiers, `this`, and
`super` with the method named by the second token after it. -/
def resolveTokens (distance : Int) : List Token → Run Unit
  | [] => return ()
  | token :: rest => do
      match token.kind with
      | .identifier => resolve (.variable token.lexeme token) distance
      | .thisWord => resolve (.this token) distance
      | .superWord =>
          match rest with
          | _ :: method :: _ => resolve (.super method.lexeme token) distance
          | _ => pure ()
      | _ => pure ()
      resolveTokens distance rest

/-- The value of a variable seen from the scope a number of steps out. -/
def readAt (scope : Nat) (distance : Int) (name : String) : Run Value := do
  match (← get).store.readAt scope distance name with
  | some value => return value
  | none => throw (.scopeDistance name)

/-- The value of a variable: the one noted in the resolution table, or else the
global one. -/
def readVariable (name : String) (e : Expr) : Run Value := do
  match ← distance? e with
  | some distance => readAt (← get).current distance name
  | none =>
      let machine ← get
      return machine.store.readVariable machine.globals name

/-- Nothing and `false` are false, all else is true. -/
def isTruthy : Value → Bool
  | .nothing => false
  | .bool b => b
  | _ => true

/-- The answer of a comparison. -/
def compared (answer : Option Bool) : Run Bool :=
  match answer with
  | some equal => return equal
  | none => throw .tooDeep

def isEqual (a b : Value) : Run Bool := do
  compared ((← get).store.equalValue Store.depthLimit a b)

def isEqualScope (a b : Nat) : Run Bool := do
  compared (Store.equalPlace ((← get).store.equalScope Store.depthLimit) a b)

def ofNumber : Number → Value
  | .int n => .int n
  | .float x => .float x

def calculate (result : Except Number.Fault Number) : Run Value :=
  match result with
  | .ok number => return ofNumber number
  | .error fault => throw (.ofNumber fault)

def numbers (operator : Token) (left right : Value) : Run (Number × Number) :=
  match left.number?, right.number? with
  | some a, some b => return (a, b)
  | _, _ => complain .operandsNotNumbers operator

def compareBy (operator : Token) (left right : Value) (holds : Ordering → Bool) : Run Value := do
  let (a, b) ← numbers operator left right
  return .bool ((a.compare? b).any holds)

def binary (operator : Token) (left right : Value) : Run Value := do
  match operator.kind with
  | .plus =>
      match left.number?, right.number? with
      | some a, some b => calculate (a.add b)
      | _, _ =>
          match left, right with
          | .str _, _ | _, .str _ =>
              let first ← shown left
              let second ← shown right
              return .str (first ++ second)
          | _, _ => complain .operandsNotNumbersOrStrings operator
  | .minus => do
      let (a, b) ← numbers operator left right
      calculate (a.sub b)
  | .multiply => do
      let (a, b) ← numbers operator left right
      calculate (a.mul b)
  | .divide => do
      let (a, b) ← numbers operator left right
      if b.isZero then complain .divisionByZero operator else calculate (a.div b)
  | .modulo => do
      let (a, b) ← numbers operator left right
      if b.isZero then complain .moduloByZero operator else calculate (a.mod b)
  | .greater => compareBy operator left right (· == .gt)
  | .greaterEqual => compareBy operator left right (· != .lt)
  | .less => compareBy operator left right (· == .lt)
  | .lessEqual => compareBy operator left right (· != .gt)
  | .equals => return .bool (← isEqual left right)
  | .notEquals => return .bool (!(← isEqual left right))
  | kind => complain (.unknownOperator kind) operator

def unary (operator : Token) (right : Value) : Run Value :=
  match operator.kind with
  | .minus =>
      match right.number? with
      | some a => return ofNumber a.neg
      | none => complain .operandNotNumber operator
  | .not => return .bool (!isTruthy right)
  | kind => complain (.unknownOperator kind) operator

/-- A builtin function applied to its arguments. -/
def builtin : Builtin → List Value → Run Value
  | .out, [value] => do
      let text ← shown value
      modify (·.print (text ++ "\n"))
      return .nothing
  | .out, _ => throw (.argumentCount "out")
  | .length, [.array items _] => do return .int ((← get).store.items items).length
  | .length, [_] => throw (.argumentNotArray "length")
  | .length, _ => throw (.argumentCount "length")

/-- A function called with arguments. Only builtin functions have anything to
call. -/
def callFunction (place : Nat) (arguments : List Value) : Run Value := do
  match ((← get).store.function place).builtin with
  | some native => builtin native arguments
  | none => throw .emptyCall

/-- The place of an item in an array. -/
def itemIndex (items : Items) (index : Value) : Run Nat := do
  let size := ((← get).store.items items).length
  let inside (n : Int) : Run Nat := do
    if 0 ≤ n ∧ n < size then return n.toNat
    else throw (.indexBounds (← shown index))
  match index with
  | .int n => inside n
  | .bool b => inside (if b then 1 else 0)
  | other => throw (.indexType other.qualifiedType)

def readItem (items : Items) (index : Value) : Run Value := do
  let place ← itemIndex items index
  return ((← get).store.items items)[place]?.getD .nothing

def writeItem (items : Items) (index value : Value) : Run Unit := do
  let place ← itemIndex items index
  changeStore fun store => store.setItem items place value

/-- A property of an array: its length or the item at an index. -/
def arrayProperty (items : Items) (name : String) (token : Token) : Run Value := do
  if name = "length" then return .int ((← get).store.items items).length
  else
    match Integer.read name.toList with
    | .ok n => readItem items (.int n)
    | .error _ => complain (.unknownArrayMethod name) token

/-- A field of an object, or a method bound to it. -/
def readField (object : Nat) (name : String) : Run Value := fun machine =>
  match machine.store.readField object name with
  | some (value, store) => .ok value { machine with store := store }
  | none =>
      let root := machine.store.rootClass (machine.store.object object).classDef
      .error (.fieldMissing name (machine.store.classDef root).name) machine

def writeField (object : Nat) (name : String) (value : Value) : Run Unit := fun machine =>
  match machine.store.writeField object name value with
  | some store => .ok () { machine with store := store }
  | none =>
      let root := machine.store.rootClass (machine.store.object object).classDef
      .error (.fieldMissing name (machine.store.classDef root).name) machine

/-- Sets a variable where it is bound. -/
def assignVariable (scope : Nat) (name : String) (value : Value) : Run Unit := fun machine =>
  match machine.store.setVariable scope name value with
  | some store => .ok () { machine with store := store }
  | none => .error (.variableMissing name) machine

/-- The class that `super` names, if there is one. -/
def superclass? : Run (Option Nat) := do
  let machine ← get
  let key := machine.store.readVariable machine.current "super"
  match key.keyFault? with
  | some typeName => throw (.unhashable typeName)
  | none =>
      match key with
      | .str name => return machine.store.class? machine.current name
      | _ => return none

/-- A method of the superclass, which only an expression in the resolution table
can refer to. -/
def superMethod (e : Expr) (method : String) (token : Token) : Run Value := do
  match ← distance? e with
  | none => complain .superUnavailable token
  | some _ =>
      match ← superclass? with
      | none => complain .superclassMissing token
      | some classPlace =>
          match (← get).store.method? classPlace method with
          | some function => return .function function
          | none => complain (.methodMissing method) token

def elementType? (typeName : String) : Option String :=
  let cs := typeName.toList
  if "array<".toList.isPrefixOf cs && cs.getLast? == some '>' then
    some (String.ofList (cs.drop 6).dropLast)
  else none

/-- The value with which a variable of a type starts: for an array type, an
array on the items of a list or with one item. -/
def initialValue (typeName : String) (value : Value) : Run Value :=
  match elementType? typeName with
  | none => return value
  | some element =>
      match value with
      | .array items inner => return .array items inner
      | .list items => return .array items element
      | other => withStore fun store =>
          let (place, store) := store.addCell [other]
          (.array (.cell place) element, store)

/-- Declares the parameters of a function with the arguments that are given. -/
def defineParameters (scope : Nat) : Params → List Value → Store → Store
  | (name, type) :: params, value :: values, store =>
      defineParameters scope params values (store.defineVariable scope name (some type) value)
  | _, _, store => store

/-- The class that a class extends, if it names one. -/
def parentClass (superclass : Option String) (token : Token) : Run (Option Nat) := do
  match superclass with
  | none => return none
  | some name =>
      if name = "" then return none
      else
        let machine ← get
        match machine.store.class? machine.current name with
        | some parent => return some parent
        | none => complain (.superclassUnknown name) token

/-- Adds the methods of a class, each with the scope of the class as closure. -/
def addMethods (scope : Nat) : List FunDecl → Table Nat → Store → Table Nat × Store
  | [], table, store => (table, store)
  | decl :: rest, table, store =>
      let (place, store) := store.addFunction ⟨decl.name, decl.params, decl.body, some scope, none⟩
      addMethods scope rest (table.insert decl.name place) store

end Run

end Mus
