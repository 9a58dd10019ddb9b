import Mus.Machine.Eval

/-! What is true of everything that a machine does. Evaluation and execution call each
other in many ways, but there are few kinds of steps that they are made of. A property
of steps that all of these have, and that is kept where steps are put together, is a
property of every evaluation and every execution. Expressions and statements may have
different ones, as only a statement can end by a return. -/
namespace Mus

def Fault.isReturn : Fault → Bool
  | .returned _ => true
  | _ => false

namespace Run

variable {α : Type}

/-! ## Steps put together -/

/-- Steps towards the value of an item. A number with too many digits is blamed on the
index. -/
def blaming (name : String) (token : Token) (steps : Run Value) : Run Value := fun machine =>
  match steps machine with
  | .error (.text .tooManyDigits) after => complain (.invalidArrayIndex name) token after
  | result => result

/-- The body of a constructor, which yields the object. A return only ends it. -/
def constructing (object : Nat) (body : Run Unit) : Run Value := fun machine =>
  match body machine with
  | .ok _ after => .ok (.object object) after
  | .error (.returned _) after => .ok (.object object) after
  | .error fault after => .error fault after

/-- Runs the body of a bound constructor in a scope that holds the arguments. -/
def enter (bound object : Nat) (values : List Value) (body : List Stmt → Run Unit) :
    Run Value := do
  let function := (← get).store.function bound
  let scope ← withStore fun store => store.addScope { parent := function.closure }
  changeStore (defineParameters scope function.params values)
  constructing object (inScope scope (body function.body))

def declare (change : Nat → Store → Store) : Run Unit := do
  let scope := (← get).current
  changeStore (change scope)

def declareClass (name : String) (methods : List FunDecl) (parent : Option Nat)
    (fields : Table (String × Value)) (scope : Nat) (store : Store) : Store :=
  let (methodTable, store) := addMethods scope methods [] store
  (store.defineClass scope name fields methodTable parent).2

/-- Runs steps in a new scope inside the current one, after something has been declared
there. -/
def within (change : Nat → Store → Store) (steps : Run α) : Run α := do
  let scope ← innerScope
  changeStore (change scope)
  inScope scope steps

/-! ## The rules -/

/-- The rules by which all evaluations have the first property and all executions the
second. -/
structure Rules (E S : {α : Type} → Run α → Prop) : Prop where
  -- Steps of expressions
  pure {α : Type} (value : α) : E (pure value : Run α)
  fault {α : Type} {fault : Fault} (h : fault.isReturn = false) : E (throw fault : Run α)
  bind {α β : Type} {steps : Run α} {next : α → Run β} (hSteps : E steps)
    (hNext : ∀ value, E (next value)) : E (steps >>= next)
  -- No step depends on what has been printed.
  look {α : Type} {next : Machine → Run α}
    (hSame : ∀ machine output, next { machine with output := output } = next machine)
    (hNext : ∀ machine, E (next machine)) : E (get >>= next)
  print (text : String) : E (modify (Machine.print text) : Run Unit)
  addCell (items : List Value) : E (withStore fun store => store.addCell items)
  setItem (items : Items) (index : Nat) (value : Value) :
    E (changeStore fun store => store.setItem items index value)
  readField (object : Nat) (name : String) : E (readField object name)
  writeField (object : Nat) (name : String) (value : Value) : E (writeField object name value)
  createInstance (classPlace : Nat) : E (withStore fun store => store.createInstance classPlace)
  bindMethod (function object : Nat) : E (withStore fun store => store.bind function object)
  blaming (name : String) (token : Token) {steps : Run Value} (hSteps : E steps) :
    E (blaming name token steps)
  enter (bound object : Nat) (values : List Value) {body : List Stmt → Run Unit}
    (hBody : ∀ statements, S (body statements)) : E (enter bound object values body)
  -- Steps of statements
  lift {α : Type} {steps : Run α} (hSteps : E steps) : S steps
  returned (value : Value) : S (throw (.returned value) : Run Unit)
  sequence {α β : Type} {steps : Run α} {next : α → Run β} (hSteps : S steps)
    (hNext : ∀ value, S (next value)) : S (steps >>= next)
  observe {α : Type} {next : Machine → Run α}
    (hSame : ∀ machine output, next { machine with output := output } = next machine)
    (hNext : ∀ machine, S (next machine)) : S (get >>= next)
  declareVariable (name : String) (type : Option String) (value : Value) :
    S (declare fun scope store => store.defineVariable scope name type value)
  declareFunction (name : String) (params : Params) (body : List Stmt) :
    S (declare fun scope store => store.defineFunction scope name params body)
  declareClass (name : String) (superclass : Option String) (methods : List FunDecl)
    (token : Token) {fields : Run (Table (String × Value))} (hFields : S fields) :
    S (do
      let parent ← parentClass superclass token
      let table ← fields
      declare (declareClass name methods parent table))
  block {steps : Run Unit} (hSteps : S steps) : S (within (fun _ store => store) steps)
  turn (iterator : String) (item : Value) {steps : Run Unit} (hSteps : S steps) :
    S (within (fun scope store => store.defineVariable scope iterator (some "any") item) steps)

namespace Rules

variable {E S : {α : Type} → Run α → Prop}

section

variable (rules : Rules E S)

include rules

/-! ## The operations of the language

They look at the machine, and few of them change it. -/

theorem complain (complaint : Complaint) (token : Token) :
    E (complain complaint token : Run α) :=
  rules.fault rfl

/-- A look-up in the resolution table ends with a distance or with a fault. -/
theorem distance? (e : Expr) : E (Run.distance? e) := by
  unfold Run.distance?
  split
  · exact rules.fault rfl
  · refine rules.look (fun _ _ => rfl) fun machine => ?_
    split <;> exact rules.pure _

/-- A variable is read at its noted distance or globally, and both are looks at the store. -/
theorem readVariable (name : String) (e : Expr) : E (Run.readVariable name e) := by
  refine rules.bind (rules.distance? e) fun found => ?_
  cases found with
  | some distance =>
      refine rules.look (fun _ _ => rfl) fun machine =>
        rules.look (fun _ _ => rfl) fun again => ?_
      split
      · exact rules.pure _
      · exact rules.fault rfl
  | none => exact rules.look (fun _ _ => rfl) fun _ => rules.pure _

theorem superclass? : E Run.superclass? := by
  refine rules.look (fun _ _ => rfl) fun machine => ?_
  dsimp only
  split
  · exact rules.fault rfl
  · split <;> exact rules.pure _

/-- A superclass is looked for as a variable and then as a class. -/
theorem superMethod (e : Expr) (method : String) (token : Token) :
    E (Run.superMethod e method token) := by
  refine rules.bind (rules.distance? e) fun found => ?_
  cases found with
  | none => exact rules.complain _ _
  | some distance =>
      refine rules.bind rules.superclass? fun parent => ?_
      cases parent with
      | none => exact rules.complain _ _
      | some classPlace =>
          refine rules.look (fun _ _ => rfl) fun machine => ?_
          split
          · exact rules.pure _
          · exact rules.complain _ _

theorem shown (value : Value) : E (Run.shown value) := by
  refine rules.look (fun _ _ => rfl) fun machine => ?_
  split
  · exact rules.pure _
  · exact rules.fault rfl

theorem isEqual (a b : Value) : E (Run.isEqual a b) := by
  refine rules.look (fun _ _ => rfl) fun machine => ?_
  unfold compared
  split
  · exact rules.pure _
  · exact rules.fault rfl

theorem calculate (result : Except Number.Fault Number) : E (Run.calculate result) := by
  cases result with
  | ok number => exact rules.pure _
  | error fault =>
      refine rules.fault ?_
      cases fault <;> rfl

theorem numbers (operator : Token) (left right : Value) :
    E (Run.numbers operator left right) := by
  unfold Run.numbers
  split
  · exact rules.pure _
  · exact rules.complain _ _

theorem compareBy (operator : Token) (left right : Value) (holds : Ordering → Bool) :
    E (Run.compareBy operator left right holds) :=
  rules.bind (rules.numbers operator left right) fun _ => rules.pure _

/-- Addition may show its operands and equality compares them. All other operators need numbers. -/
theorem binary (operator : Token) (left right : Value) : E (Run.binary operator left right) := by
  have hJoined : E (do
      let first ← Run.shown left
      let second ← Run.shown right
      return Value.str (first ++ second)) :=
    rules.bind (rules.shown left) fun _ => rules.bind (rules.shown right) fun _ => rules.pure _
  have hNumbers := rules.numbers operator left right
  unfold Run.binary
  split
  · split
    · exact rules.calculate _
    · split
      · exact hJoined
      · exact hJoined
      · exact rules.complain _ _
  · exact rules.bind hNumbers fun _ => rules.calculate _
  · exact rules.bind hNumbers fun _ => rules.calculate _
  · refine rules.bind hNumbers fun pair => ?_
    split
    split
    · exact rules.complain _ _
    · exact rules.calculate _
  · refine rules.bind hNumbers fun pair => ?_
    split
    split
    · exact rules.complain _ _
    · exact rules.calculate _
  · exact rules.compareBy _ _ _ _
  · exact rules.compareBy _ _ _ _
  · exact rules.compareBy _ _ _ _
  · exact rules.compareBy _ _ _ _
  · exact rules.bind (rules.isEqual left right) fun _ => rules.pure _
  · exact rules.bind (rules.isEqual left right) fun _ => rules.pure _
  · exact rules.complain _ _

theorem unary (operator : Token) (right : Value) : E (Run.unary operator right) := by
  unfold Run.unary
  split
  · split
    · exact rules.pure _
    · exact rules.complain _ _
  · exact rules.pure _
  · exact rules.complain _ _

/-- Of the builtin functions only the one that prints changes anything. -/
theorem builtin (native : Builtin) (arguments : List Value) :
    E (Run.builtin native arguments) := by
  unfold Run.builtin
  split
  · exact rules.bind (rules.shown _) fun _ => rules.bind (rules.print _) fun _ => rules.pure _
  · exact rules.fault rfl
  · exact rules.look (fun _ _ => rfl) fun _ => rules.pure _
  · exact rules.fault rfl
  · exact rules.fault rfl

/-- Only builtin functions have anything to call. -/
theorem callFunction (place : Nat) (arguments : List Value) :
    E (Run.callFunction place arguments) := by
  refine rules.look (fun _ _ => rfl) fun machine => ?_
  split
  · exact rules.builtin _ _
  · exact rules.fault rfl

theorem itemIndex (items : Items) (index : Value) : E (Run.itemIndex items index) := by
  refine rules.look (fun _ _ => rfl) fun machine => ?_
  have hInside (n : Int) : E (do
      if 0 ≤ n ∧ n < (machine.store.items items).length then return n.toNat
      else throw (Fault.indexBounds (← Run.shown index)) : Run Nat) := by
    split
    · exact rules.pure _
    · exact rules.bind (rules.shown index) fun _ => rules.fault rfl
  split
  · exact hInside _
  · exact hInside _
  · exact rules.fault rfl

theorem writeItem (items : Items) (index value : Value) : E (Run.writeItem items index value) :=
  rules.bind (rules.itemIndex items index) fun _ => rules.setItem items _ value

theorem arrayProperty (items : Items) (name : String) (token : Token) :
    E (Run.arrayProperty items name token) := by
  unfold Run.arrayProperty
  split
  · exact rules.look (fun _ _ => rfl) fun _ => rules.pure _
  · split
    · exact rules.bind (rules.itemIndex items _) fun _ =>
        rules.look (fun _ _ => rfl) fun _ => rules.pure _
    · exact rules.complain _ _

/-- A variable of an array type starts on a list, for which a cell may be added. -/
theorem initialValue (typeName : String) (value : Value) :
    E (Run.initialValue typeName value) := by
  unfold Run.initialValue
  split
  · exact rules.pure _
  · split
    · exact rules.pure _
    · exact rules.pure _
    · exact rules.bind (rules.addCell _) fun place => rules.pure (Value.array (.cell place) _)

end

/-! ## Evaluation and execution

By induction on the bound that the functions share. -/

mutual

/-- By induction on the fuel, with one case for each kind of expression. The other nine parts of an
evaluation are treated with it. -/
theorem evaluate (rules : Rules E S) (fuel room : Nat) (e : Expr) :
    E (Run.evaluate fuel room e) := by
  unfold Run.evaluate
  match fuel, e with
  | 0, _ => exact rules.fault rfl
  | fuel + 1, .literal value token => exact rules.pure _
  | fuel + 1, .variable name token => exact rules.readVariable _ _
  | fuel + 1, .this token => exact rules.readVariable _ _
  | fuel + 1, .super method token => exact rules.superMethod _ _ _
  | fuel + 1, .binary left operator right =>
      exact rules.bind (rules.evaluate fuel room left) fun _ =>
        rules.bind (rules.evaluate fuel room right) fun _ => rules.binary _ _ _
  | fuel + 1, .unary operator right =>
      exact rules.bind (rules.evaluate fuel room right) fun _ => rules.unary _ _
  | fuel + 1, .call callee arguments token =>
      refine rules.bind (rules.evaluate fuel room callee) fun target => ?_
      split
      · exact rules.bind (rules.evaluateAll fuel room arguments) fun _ => rules.callFunction _ _
      · exact rules.construct fuel room _ arguments
      · exact rules.complain _ _
  | fuel + 1, .get object name token =>
      refine rules.bind (rules.evaluate fuel room object) fun target => ?_
      split
      · exact rules.arrayProperty _ _ _
      · exact rules.readField _ _
      · exact rules.complain _ _
  | fuel + 1, .set object name value token =>
      refine rules.bind (rules.evaluate fuel room object) fun target => ?_
      split
      · exact rules.assignItem fuel room _ name value token
      · exact rules.bind (rules.evaluate fuel room value) fun _ =>
          rules.bind (rules.writeField _ _ _) fun _ => rules.pure _
      · exact rules.complain _ _
  | fuel + 1, .base => exact rules.complain _ _
  | fuel + 1, .stray kind => exact rules.complain _ _

theorem evaluateAll (rules : Rules E S) (fuel room : Nat) (arguments : List Expr) :
    E (Run.evaluateAll fuel room arguments) := by
  unfold Run.evaluateAll
  match fuel, arguments with
  | 0, _ => exact rules.fault rfl
  | _ + 1, [] => exact rules.pure _
  | fuel + 1, e :: rest =>
      exact rules.bind (rules.evaluate fuel room e) fun _ =>
        rules.bind (rules.evaluateAll fuel room rest) fun _ => rules.pure _

theorem assignItem (rules : Rules E S) (fuel room : Nat) (items : Items) (name : String)
    (value : Expr) (token : Token) : E (Run.assignItem fuel room items name value token) := by
  unfold Run.assignItem
  match fuel with
  | 0 => exact rules.fault rfl
  | fuel + 1 =>
      dsimp only
      split
      · exact rules.complain _ _
      · next index _ =>
        exact rules.blaming name token (rules.bind (rules.evaluate fuel room value) fun result =>
          rules.bind (rules.writeItem items (.int index) result) fun _ => rules.pure result)

/-- The arguments are evaluated, and the body of the constructor is executed in a scope of its
own. -/
theorem construct (rules : Rules E S) (fuel room classPlace : Nat) (arguments : List Expr) :
    E (Run.construct fuel room classPlace arguments) := by
  unfold Run.construct
  match fuel with
  | 0 => exact rules.fault rfl
  | fuel + 1 =>
      refine rules.bind (rules.createInstance classPlace) fun object =>
        rules.look (fun _ _ => rfl) fun machine => ?_
      split
      · exact rules.pure _
      · refine rules.bind (rules.bindMethod _ object) fun bound =>
          rules.bind (rules.evaluateAll fuel room arguments) fun values => ?_
        match room with
        | 0 => exact rules.fault rfl
        | room + 1 =>
            exact rules.enter bound object values fun body => rules.executeAll fuel room body

theorem executeAll (rules : Rules E S) (fuel room : Nat) (body : List Stmt) :
    S (Run.executeAll fuel room body) := by
  unfold Run.executeAll
  match fuel, body with
  | 0, _ => exact rules.lift (rules.fault rfl)
  | _ + 1, [] => exact rules.lift (rules.pure _)
  | fuel + 1, stmt :: rest =>
      exact rules.sequence (rules.execute fuel room stmt) fun _ => rules.executeAll fuel room rest

/-- One case for each kind of statement. -/
theorem execute (rules : Rules E S) (fuel room : Nat) (stmt : Stmt) :
    S (Run.execute fuel room stmt) := by
  unfold Run.execute
  match fuel, stmt with
  | 0, _ => exact rules.lift (rules.fault rfl)
  | fuel + 1, .expression e =>
      exact rules.lift (rules.bind (rules.evaluate fuel room e) fun _ => rules.pure _)
  | fuel + 1, .varDecl decl =>
      dsimp only
      split
      · exact rules.sequence (rules.lift (rules.evaluate fuel room _)) fun _ =>
          rules.sequence (rules.lift (rules.initialValue _ _)) fun value =>
            rules.declareVariable decl.name (some decl.typeName) value
      · exact rules.declareVariable decl.name (some decl.typeName) .nothing
  | fuel + 1, .funDecl decl => exact rules.declareFunction decl.name decl.params decl.body
  | fuel + 1, .classDecl name superclass fields methods token =>
      exact rules.declareClass name superclass methods token
        (rules.evaluateFields fuel room fields [])
  | fuel + 1, .block body => exact rules.block (rules.executeAll fuel room body)
  | fuel + 1, .branch condition thenBranch elseBranch =>
      refine rules.sequence (rules.lift (rules.evaluate fuel room condition)) fun value => ?_
      split
      · exact rules.execute fuel room thenBranch
      · split
        · exact rules.execute fuel room _
        · exact rules.lift (rules.pure _)
  | fuel + 1, .loop condition body => exact rules.repeatWhile fuel room condition body
  | fuel + 1, .each iterator iterable body =>
      refine rules.sequence (rules.lift (rules.evaluate fuel room iterable)) fun value => ?_
      split
      · exact rules.repeatFor fuel room iterator _ 0 body
      · exact rules.lift (rules.complain _ _)
  | fuel + 1, .ret (some e) token =>
      exact rules.sequence (rules.lift (rules.evaluate fuel room e)) fun value =>
        rules.returned value
  | fuel + 1, .ret none token => exact rules.returned .nothing
  | fuel + 1, .base => exact rules.lift (rules.complain _ _)
  | fuel + 1, .stray e => exact rules.lift (rules.complain _ _)

theorem fieldDefault (rules : Rules E S) (fuel room : Nat) (decl : VarDecl) :
    S (Run.fieldDefault fuel room decl) := by
  unfold Run.fieldDefault
  match fuel with
  | 0 => exact rules.lift (rules.fault rfl)
  | fuel + 1 =>
      dsimp only
      split
      · exact rules.lift (rules.evaluate fuel room _)
      · exact rules.lift (rules.pure _)

theorem evaluateFields (rules : Rules E S) (fuel room : Nat) (fields : List VarDecl)
    (table : Table (String × Value)) : S (Run.evaluateFields fuel room fields table) := by
  unfold Run.evaluateFields
  match fuel, fields with
  | 0, _ => exact rules.lift (rules.fault rfl)
  | _ + 1, [] => exact rules.lift (rules.pure _)
  | fuel + 1, field :: rest =>
      exact rules.sequence (rules.fieldDefault fuel room field) fun _ =>
        rules.evaluateFields fuel room rest _

/-- Each turn evaluates the condition and executes the body. -/
theorem repeatWhile (rules : Rules E S) (fuel room : Nat) (condition : Expr) (body : Stmt) :
    S (Run.repeatWhile fuel room condition body) := by
  unfold Run.repeatWhile
  match fuel with
  | 0 => exact rules.lift (rules.fault rfl)
  | fuel + 1 =>
      refine rules.sequence (rules.lift (rules.evaluate fuel room condition)) fun value => ?_
      split
      · exact rules.sequence (rules.execute fuel room body) fun _ =>
          rules.repeatWhile fuel room condition body
      · exact rules.lift (rules.pure _)

/-- Each turn executes the body in a new scope, in which the iterator is declared. -/
theorem repeatFor (rules : Rules E S) (fuel room : Nat) (iterator : String) (items : Items)
    (index : Nat) (body : Stmt) : S (Run.repeatFor fuel room iterator items index body) := by
  unfold Run.repeatFor
  match fuel with
  | 0 => exact rules.lift (rules.fault rfl)
  | fuel + 1 =>
      refine rules.observe (fun _ _ => rfl) fun machine => ?_
      split
      · exact rules.lift (rules.pure _)
      · next item _ =>
        have hTurn := rules.sequence (rules.turn iterator item (rules.execute fuel room body))
          fun _ => rules.repeatFor fuel room iterator items (index + 1) body
        simpa only [within, bind_assoc] using hTurn

end

end Rules

end Run

end Mus
