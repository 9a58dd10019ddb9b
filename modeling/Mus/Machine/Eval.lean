import Mus.Machine.Basic

/-! Evaluating expressions and executing statements. Two numbers bound what a
program may do: `fuel` the length of any chain of evaluations within each other,
with the turns of a loop counted as such a chain; `room` the number of
constructors that may run within each other. The first only makes the
definitions total. The second is a limit of the language, which a constructor
that makes an object of its own class runs against. -/
namespace Mus.Run

mutual

def evaluate : Nat → Nat → Expr → Run Value
  | 0, _, _ => throw .outOfFuel
  | fuel + 1, room, e =>
      match e with
      | .literal value _ => return value
      | .variable name _ => readVariable name e
      | .this _ => readVariable "this" e
      | .super method token => superMethod e method token
      | .binary left operator right => do
          let a ← evaluate fuel room left
          let b ← evaluate fuel room right
          binary operator a b
      | .unary operator right => do
          let a ← evaluate fuel room right
          unary operator a
      | .call callee arguments token => do
          let target ← evaluate fuel room callee
          match target with
          | .function place => do
              let values ← evaluateAll fuel room arguments
              callFunction place values
          | .classDef place => construct fuel room place arguments
          | _ => complain .notCallable token
      | .get object name token => do
          let target ← evaluate fuel room object
          match target with
          | .array items _ => arrayProperty items name token
          | .object place => readField place name
          | _ => complain .noProperties token
      | .set object name value token => do
          let target ← evaluate fuel room object
          match target with
          | .array items _ => assignItem fuel room items name value token
          | .object place => do
              let result ← evaluate fuel room value
              writeField place name result
              return result
          | _ => complain .noFields token
      | .base => complain (.unknownExpression e.nodeName) .nowhere
      | .stray _ => complain (.unknownExpression e.nodeName) .nowhere

def evaluateAll : Nat → Nat → List Expr → Run (List Value)
  | 0, _, _ => throw .outOfFuel
  | _ + 1, _, [] => return []
  | fuel + 1, room, e :: rest => do
      let first ← evaluate fuel room e
      let others ← evaluateAll fuel room rest
      return first :: others

/-- Sets an item of an array. A number with too many digits on the way to the
value is blamed on the index. -/
def assignItem : Nat → Nat → Items → String → Expr → Token → Run Value
  | 0, _, _, _, _, _ => throw .outOfFuel
  | fuel + 1, room, items, name, value, token =>
      match Integer.read name.toList with
      | .error _ => complain (.invalidArrayIndex name) token
      | .ok n => fun machine =>
          let steps : Run Value := do
            let result ← evaluate fuel room value
            writeItem items (.int n) result
            return result
          match steps machine with
          | .error (.text .tooManyDigits) after =>
              complain (.invalidArrayIndex name) token after
          | result => result

/-- A new object of a class. The arguments are evaluated only for a constructor.
Its body runs in a scope inside that of the bound constructor, and a return
statement only ends it. -/
def construct : Nat → Nat → Nat → List Expr → Run Value
  | 0, _, _, _ => throw .outOfFuel
  | fuel + 1, room, classPlace, arguments => do
      let object ← withStore fun store => store.createInstance classPlace
      match (← get).store.method? classPlace "init" with
      | none => return .object object
      | some init =>
          let bound ← withStore fun store => store.bind init object
          let values ← evaluateAll fuel room arguments
          match room with
          | 0 => throw .tooDeep
          | room + 1 =>
              let function := (← get).store.function bound
              let scope ← withStore fun store => store.addScope { parent := function.closure }
              changeStore (defineParameters scope function.params values)
              fun machine =>
                match inScope scope (executeAll fuel room function.body) machine with
                | .ok _ after => .ok (.object object) after
                | .error (.returned _) after => .ok (.object object) after
                | .error fault after => .error fault after

def executeAll : Nat → Nat → List Stmt → Run Unit
  | 0, _, _ => throw .outOfFuel
  | _ + 1, _, [] => return ()
  | fuel + 1, room, stmt :: rest => do
      execute fuel room stmt
      executeAll fuel room rest

def execute : Nat → Nat → Stmt → Run Unit
  | 0, _, _ => throw .outOfFuel
  | fuel + 1, room, stmt =>
      match stmt with
      | .expression e => do
          let _ ← evaluate fuel room e
      | .varDecl decl => do
          let value ← match decl.initializer with
            | some e => do
                let start ← evaluate fuel room e
                initialValue decl.typeName start
            | none => pure .nothing
          let scope := (← get).current
          changeStore fun store =>
            store.defineVariable scope decl.name (some decl.typeName) value
      | .funDecl decl => do
          let scope := (← get).current
          changeStore fun store => store.defineFunction scope decl.name decl.params decl.body
      | .classDecl name superclass fields methods token => do
          let parent ← parentClass superclass token
          let fieldTable ← evaluateFields fuel room fields []
          let scope := (← get).current
          changeStore fun store =>
            let (methodTable, store) := addMethods scope methods [] store
            (store.defineClass scope name fieldTable methodTable parent).2
      | .block body => do
          let scope ← innerScope
          inScope scope (executeAll fuel room body)
      | .branch condition thenBranch elseBranch => do
          if isTruthy (← evaluate fuel room condition) then execute fuel room thenBranch
          else match elseBranch with
            | some other => execute fuel room other
            | none => return ()
      | .loop condition body => repeatWhile fuel room condition body
      | .each iterator iterable body => do
          match ← evaluate fuel room iterable with
          | .list items => repeatFor fuel room iterator items 0 body
          | _ => complain .notIterable .nowhere
      | .ret value _ => do
          match value with
          | some e => throw (.returned (← evaluate fuel room e))
          | none => throw (.returned .nothing)
      | .base => complain (.unknownStatement stmt.nodeName) .nowhere
      | .stray _ => complain (.unknownStatement stmt.nodeName) .nowhere

/-- The default of a field; nothing without an initializer. -/
def fieldDefault : Nat → Nat → VarDecl → Run Value
  | 0, _, _ => throw .outOfFuel
  | fuel + 1, room, decl =>
      match decl.initializer with
      | some e => evaluate fuel room e
      | none => return .nothing

def evaluateFields : Nat → Nat → List VarDecl → Table (String × Value) →
    Run (Table (String × Value))
  | 0, _, _, _ => throw .outOfFuel
  | _ + 1, _, [], table => return table
  | fuel + 1, room, field :: rest, table => do
      let value ← fieldDefault fuel room field
      evaluateFields fuel room rest (table.insert field.name (field.typeName, value))

/-- Executes the body as long as the condition is true. -/
def repeatWhile : Nat → Nat → Expr → Stmt → Run Unit
  | 0, _, _, _ => throw .outOfFuel
  | fuel + 1, room, condition, body => do
      if isTruthy (← evaluate fuel room condition) then
        execute fuel room body
        repeatWhile fuel room condition body
      else return ()

/-- Executes the body for the items of a list from an index on, each in a scope
of its own. -/
def repeatFor : Nat → Nat → String → Items → Nat → Stmt → Run Unit
  | 0, _, _, _, _, _ => throw .outOfFuel
  | fuel + 1, room, iterator, items, index, body => do
      match ((← get).store.items items)[index]? with
      | none => return ()
      | some item =>
          let scope ← innerScope
          changeStore fun store => store.defineVariable scope iterator (some "any") item
          inScope scope (execute fuel room body)
          repeatFor fuel room iterator items (index + 1) body

end

end Mus.Run
