import Mathlib.Logic.Relation
import Mus.Proofs.Machine.Frame
import Mus.Proofs.Machine.Loading

/-! The moments of a run: what a machine is about to do, and which further
moments this leads to. There is one way to start a further moment for each place
where evaluation and execution call each other, with the results that led there.
A moment of a source starts moments of a source only. -/
namespace Mus

inductive Task where
  | evaluate (e : Expr)
  | evaluateAll (arguments : List Expr)
  | assignItem (items : Items) (name : String) (value : Expr) (token : Token)
  | construct (classPlace : Nat) (arguments : List Expr)
  | executeAll (body : List Stmt)
  | execute (stmt : Stmt)
  | fieldDefault (decl : VarDecl)
  | evaluateFields (fields : List VarDecl) (table : Table (String × Value))
  | repeatWhile (condition : Expr) (body : Stmt)
  | repeatFor (iterator : String) (items : Items) (index : Nat) (body : Stmt)
  | builtin (native : Builtin) (arguments : List Value)

/-- A machine with what it is to do, within the two bounds of a run. -/
structure Moment where
  fuel : Nat
  room : Nat
  task : Task
  machine : Machine

/-- The moment is reached while a machine carries out a task within the bounds
`fuel + 1` and `room`, with no other task between them. -/
inductive Starts (fuel room : Nat) (machine : Machine) : Task → Moment → Prop where
  -- Expressions
  | binaryLeft {left right : Expr} {operator : Token} :
      Starts fuel room machine (.evaluate (.binary left operator right))
        ⟨fuel, room, .evaluate left, machine⟩
  | binaryRight {left right : Expr} {operator : Token} {value : Value} {after : Machine}
      (hLeft : Run.evaluate fuel room left machine = .ok value after) :
      Starts fuel room machine (.evaluate (.binary left operator right))
        ⟨fuel, room, .evaluate right, after⟩
  | unary {right : Expr} {operator : Token} :
      Starts fuel room machine (.evaluate (.unary operator right))
        ⟨fuel, room, .evaluate right, machine⟩
  | callee {callee : Expr} {arguments : List Expr} {token : Token} :
      Starts fuel room machine (.evaluate (.call callee arguments token))
        ⟨fuel, room, .evaluate callee, machine⟩
  | callArguments {callee : Expr} {arguments : List Expr} {token : Token} {place : Nat}
      {after : Machine}
      (hCallee : Run.evaluate fuel room callee machine = .ok (.function place) after) :
      Starts fuel room machine (.evaluate (.call callee arguments token))
        ⟨fuel, room, .evaluateAll arguments, after⟩
  | callBuiltin {callee : Expr} {arguments : List Expr} {token : Token} {place : Nat}
      {values : List Value} {native : Builtin} {after later : Machine}
      (hCallee : Run.evaluate fuel room callee machine = .ok (.function place) after)
      (hArguments : Run.evaluateAll fuel room arguments after = .ok values later)
      (hNative : (later.store.function place).builtin = some native) :
      Starts fuel room machine (.evaluate (.call callee arguments token))
        ⟨fuel, room, .builtin native values, later⟩
  | callClass {callee : Expr} {arguments : List Expr} {token : Token} {place : Nat}
      {after : Machine}
      (hCallee : Run.evaluate fuel room callee machine = .ok (.classDef place) after) :
      Starts fuel room machine (.evaluate (.call callee arguments token))
        ⟨fuel, room, .construct place arguments, after⟩
  | getObject {object : Expr} {name : String} {token : Token} :
      Starts fuel room machine (.evaluate (.get object name token))
        ⟨fuel, room, .evaluate object, machine⟩
  | setObject {object value : Expr} {name : String} {token : Token} :
      Starts fuel room machine (.evaluate (.set object name value token))
        ⟨fuel, room, .evaluate object, machine⟩
  | setItem {object value : Expr} {name element : String} {token : Token} {items : Items}
      {after : Machine}
      (hObject : Run.evaluate fuel room object machine = .ok (.array items element) after) :
      Starts fuel room machine (.evaluate (.set object name value token))
        ⟨fuel, room, .assignItem items name value token, after⟩
  | setField {object value : Expr} {name : String} {token : Token} {place : Nat} {after : Machine}
      (hObject : Run.evaluate fuel room object machine = .ok (.object place) after) :
      Starts fuel room machine (.evaluate (.set object name value token))
        ⟨fuel, room, .evaluate value, after⟩
  | firstArgument {e : Expr} {rest : List Expr} :
      Starts fuel room machine (.evaluateAll (e :: rest))
        ⟨fuel, room, .evaluate e, machine⟩
  | moreArguments {e : Expr} {rest : List Expr} {value : Value} {after : Machine}
      (hFirst : Run.evaluate fuel room e machine = .ok value after) :
      Starts fuel room machine (.evaluateAll (e :: rest))
        ⟨fuel, room, .evaluateAll rest, after⟩
  | itemValue {items : Items} {name : String} {value : Expr} {token : Token} {index : Int}
      (hIndex : Integer.read name.toList = .ok index) :
      Starts fuel room machine (.assignItem items name value token)
        ⟨fuel, room, .evaluate value, machine⟩
  | initArguments {place object init bound : Nat} {arguments : List Expr} {created ready : Store}
      (hCreate : machine.store.createInstance place = (object, created))
      (hInit : created.method? place "init" = some init)
      (hBind : created.bind init object = (bound, ready)) :
      Starts fuel room machine (.construct place arguments)
        ⟨fuel, room, .evaluateAll arguments, { machine with store := ready }⟩
  | initBody {inner place object init bound scope : Nat} {arguments : List Expr}
      {values : List Value} {created ready entered : Store} {after : Machine}
      (hCreate : machine.store.createInstance place = (object, created))
      (hInit : created.method? place "init" = some init)
      (hBind : created.bind init object = (bound, ready))
      (hArguments : Run.evaluateAll fuel room arguments { machine with store := ready } =
        .ok values after) (hRoom : room = inner + 1)
      (hScope : after.store.addScope { parent := (after.store.function bound).closure } =
        (scope, entered)) :
      Starts fuel room machine (.construct place arguments)
        ⟨fuel, inner, .executeAll (after.store.function bound).body,
          { after with
            store := Run.defineParameters scope (after.store.function bound).params values entered
            current := scope }⟩
  -- Statements
  | firstStatement {stmt : Stmt} {rest : List Stmt} :
      Starts fuel room machine (.executeAll (stmt :: rest))
        ⟨fuel, room, .execute stmt, machine⟩
  | moreStatements {stmt : Stmt} {rest : List Stmt} {after : Machine}
      (hFirst : Run.execute fuel room stmt machine = .ok () after) :
      Starts fuel room machine (.executeAll (stmt :: rest))
        ⟨fuel, room, .executeAll rest, after⟩
  | expression {e : Expr} :
      Starts fuel room machine (.execute (.expression e))
        ⟨fuel, room, .evaluate e, machine⟩
  | initializer {decl : VarDecl} {e : Expr} (hInitializer : decl.initializer = some e) :
      Starts fuel room machine (.execute (.varDecl decl))
        ⟨fuel, room, .evaluate e, machine⟩
  | classFields {name : String} {superclass : Option String} {fields : List VarDecl}
      {methods : List FunDecl} {token : Token} {parent : Option Nat} {after : Machine}
      (hParent : Run.parentClass superclass token machine = .ok parent after) :
      Starts fuel room machine (.execute (.classDecl name superclass fields methods token))
        ⟨fuel, room, .evaluateFields fields [], after⟩
  | block {body : List Stmt} {scope : Nat} {entered : Store}
      (hScope : machine.store.addScope { parent := some machine.current } = (scope, entered)) :
      Starts fuel room machine (.execute (.block body))
        ⟨fuel, room, .executeAll body, { machine with store := entered, current := scope }⟩
  | condition {condition : Expr} {thenBranch : Stmt} {elseBranch : Option Stmt} :
      Starts fuel room machine (.execute (.branch condition thenBranch elseBranch))
        ⟨fuel, room, .evaluate condition, machine⟩
  | thenBranch {condition : Expr} {thenBranch : Stmt} {elseBranch : Option Stmt} {value : Value}
      {after : Machine}
      (hCondition : Run.evaluate fuel room condition machine = .ok value after)
      (hTrue : Run.isTruthy value = true) :
      Starts fuel room machine (.execute (.branch condition thenBranch elseBranch))
        ⟨fuel, room, .execute thenBranch, after⟩
  | elseBranch {condition : Expr} {thenBranch other : Stmt} {value : Value} {after : Machine}
      (hCondition : Run.evaluate fuel room condition machine = .ok value after)
      (hFalse : Run.isTruthy value = false) :
      Starts fuel room machine (.execute (.branch condition thenBranch (some other)))
        ⟨fuel, room, .execute other, after⟩
  | loop {condition : Expr} {body : Stmt} :
      Starts fuel room machine (.execute (.loop condition body))
        ⟨fuel, room, .repeatWhile condition body, machine⟩
  | iterable {iterator : String} {iterable : Expr} {body : Stmt} :
      Starts fuel room machine (.execute (.each iterator iterable body))
        ⟨fuel, room, .evaluate iterable, machine⟩
  | each {iterator : String} {iterable : Expr} {body : Stmt} {items : Items} {after : Machine}
      (hIterable : Run.evaluate fuel room iterable machine = .ok (.list items) after) :
      Starts fuel room machine (.execute (.each iterator iterable body))
        ⟨fuel, room, .repeatFor iterator items 0 body, after⟩
  | returned {e : Expr} {token : Token} :
      Starts fuel room machine (.execute (.ret (some e) token))
        ⟨fuel, room, .evaluate e, machine⟩
  | fieldInitializer {decl : VarDecl} {e : Expr} (hInitializer : decl.initializer = some e) :
      Starts fuel room machine (.fieldDefault decl) ⟨fuel, room, .evaluate e, machine⟩
  | firstField {field : VarDecl} {rest : List VarDecl} {table : Table (String × Value)} :
      Starts fuel room machine (.evaluateFields (field :: rest) table)
        ⟨fuel, room, .fieldDefault field, machine⟩
  | moreFields {field : VarDecl} {rest : List VarDecl} {table : Table (String × Value)}
      {value : Value} {after : Machine}
      (hField : Run.fieldDefault fuel room field machine = .ok value after) :
      Starts fuel room machine (.evaluateFields (field :: rest) table)
        ⟨fuel, room, .evaluateFields rest (table.insert field.name (field.typeName, value)), after⟩
  -- Loops
  | whileCondition {condition : Expr} {body : Stmt} :
      Starts fuel room machine (.repeatWhile condition body)
        ⟨fuel, room, .evaluate condition, machine⟩
  | whileBody {condition : Expr} {body : Stmt} {value : Value} {after : Machine}
      (hCondition : Run.evaluate fuel room condition machine = .ok value after)
      (hTrue : Run.isTruthy value = true) :
      Starts fuel room machine (.repeatWhile condition body)
        ⟨fuel, room, .execute body, after⟩
  | whileAgain {condition : Expr} {body : Stmt} {value : Value} {after later : Machine}
      (hCondition : Run.evaluate fuel room condition machine = .ok value after)
      (hTrue : Run.isTruthy value = true)
      (hBody : Run.execute fuel room body after = .ok () later) :
      Starts fuel room machine (.repeatWhile condition body)
        ⟨fuel, room, .repeatWhile condition body, later⟩
  | forBody {iterator : String} {items : Items} {index scope : Nat} {body : Stmt} {item : Value}
      {entered : Store} (hItem : (machine.store.items items)[index]? = some item)
      (hScope : machine.store.addScope { parent := some machine.current } = (scope, entered)) :
      Starts fuel room machine (.repeatFor iterator items index body)
        ⟨fuel, room, .execute body,
          { machine with
            store := entered.defineVariable scope iterator (some "any") item
            current := scope }⟩
  | forAgain {iterator : String} {items : Items} {index scope : Nat} {body : Stmt} {item : Value}
      {entered : Store} {after : Machine} (hItem : (machine.store.items items)[index]? = some item)
      (hScope : machine.store.addScope { parent := some machine.current } = (scope, entered))
      (hBody : Run.inScope scope (Run.execute fuel room body)
        { machine with store := entered.defineVariable scope iterator (some "any") item } =
        .ok () after) :
      Starts fuel room machine (.repeatFor iterator items index body)
        ⟨fuel, room, .repeatFor iterator items (index + 1) body, after⟩

/-- The second moment is started from the first one. -/
inductive Moment.Next : Moment → Moment → Prop where
  | intro {fuel room : Nat} {machine : Machine} {task : Task} {next : Moment}
      (hStarts : Starts fuel room machine task next) : Next ⟨fuel + 1, room, task, machine⟩ next

/-- The second moment comes from the first one, in any number of starts. -/
abbrev Moment.LeadsTo : Moment → Moment → Prop := Relation.ReflTransGen Moment.Next

/-- Each start takes one unit of fuel. -/
theorem Starts.fuel_eq {fuel room : Nat} {machine : Machine} {task : Task} {next : Moment}
    (h : Starts fuel room machine task next) : next.fuel = fuel := by
  cases h <;> rfl

/-! ## Moments of sources -/

/-- The task is about a program of a source. Some tasks are none of such a program. -/
def Task.Sourced : Task → Prop
  | .evaluate e => e.Runnable
  | .executeAll body => Stmt.AllSourced body
  | .execute stmt => stmt.Sourced
  | .fieldDefault decl => decl.Sourced
  | .evaluateFields fields _ => ∀ field ∈ fields, field.Sourced
  | .repeatWhile condition body =>
      condition.Runnable ∧ body.Sourced ∧ body.isDeclaration = false
  | .evaluateAll _ | .assignItem _ _ _ _ | .construct _ _ | .repeatFor _ _ _ _ | .builtin _ _ =>
      False

structure Moment.Sourced (moment : Moment) : Prop where
  task : moment.task.Sourced
  machine : moment.machine.Sourced

/-- A new scope makes no difference to what comes from sources. -/
theorem Machine.Sourced.addScope {machine : Machine} (h : machine.Sourced) {parent : Option Nat}
    {scope : Nat} {entered : Store}
    (hScope : machine.store.addScope { parent := parent } = (scope, entered)) :
    ({ machine with store := entered, current := scope } : Machine).Sourced := by
  have hStore := (machine.store.grows_addScope (fun _ => True) parent).sourced h.store
  rw [hScope] at hStore
  exact ⟨hStore, h.locals, h.globals⟩

/-- What is started from a moment of a source is one as well. No call, no property and
no loop over a list gets that far. -/
theorem Starts.sourced {fuel room : Nat} {machine : Machine} {task : Task} {next : Moment}
    (h : Starts fuel room machine task next) (hTask : task.Sourced) (hMachine : machine.Sourced) :
    next.Sourced := by
  have hValue {e : Expr} (he : e.Runnable) {value : Value} {after : Machine}
      (hRun : Run.evaluate fuel room e machine = .ok value after) :
      after = machine ∧ value.Sourced :=
    (Run.looks_expression fuel room he).of_ok ⟨rfl, hMachine⟩ hRun
  cases h with
  | binaryLeft => exact ⟨(Run.views_sourced.binary _ _ _ hTask).1, hMachine⟩
  | binaryRight hLeft =>
      obtain ⟨hFirst, hSecond⟩ := Run.views_sourced.binary _ _ _ hTask
      obtain ⟨rfl, -⟩ := hValue hFirst hLeft
      exact ⟨hSecond, hMachine⟩
  | unary => exact ⟨Run.views_sourced.unary _ _ hTask, hMachine⟩
  | callee | getObject | setObject => exact ⟨Expr.Runnable.target hTask rfl, hMachine⟩
  | callArguments hTarget | callBuiltin hTarget | callClass hTarget | setItem hTarget
  | setField hTarget => exact absurd (hValue (Expr.Runnable.target hTask rfl) hTarget).2 id
  | firstArgument | moreArguments | itemValue | initArguments | initBody | forBody | forAgain =>
      exact absurd hTask id
  | firstStatement => exact ⟨hTask.1, hMachine⟩
  | moreStatements hFirst =>
      have hFrame := (Run.frames_execute _ _ hTask.1).of_ok hMachine hFirst
      exact ⟨hTask.2, hFrame.sourced hMachine⟩
  | expression => exact ⟨hTask, hMachine⟩
  | initializer hInitializer | fieldInitializer hInitializer =>
      exact ⟨hTask.initializer _ hInitializer, hMachine⟩
  | classFields hParent =>
      obtain ⟨rfl, -⟩ := (Run.looks_parentClass _ _).of_ok ⟨rfl, hMachine⟩ hParent
      exact ⟨hTask.1, hMachine⟩
  | block hScope => exact ⟨hTask, hMachine.addScope hScope⟩
  | condition => exact ⟨hTask.1, hMachine⟩
  | thenBranch hCondition =>
      obtain ⟨rfl, -⟩ := hValue hTask.1 hCondition
      exact ⟨hTask.2.1.1, hMachine⟩
  | elseBranch hCondition =>
      obtain ⟨rfl, -⟩ := hValue hTask.1 hCondition
      exact ⟨hTask.2.2.1, hMachine⟩
  | loop => exact ⟨hTask, hMachine⟩
  | iterable | each => exact absurd hTask id
  | returned => exact ⟨hTask _ rfl, hMachine⟩
  | firstField => exact ⟨hTask _ (List.mem_cons_self ..), hMachine⟩
  | moreFields hField =>
      obtain ⟨hFirst, hRest⟩ := List.forall_mem_cons.mp hTask
      obtain ⟨rfl, -⟩ := (Run.looks_fieldDefault _ _ hFirst).of_ok ⟨rfl, hMachine⟩ hField
      exact ⟨hRest, hMachine⟩
  | whileCondition => exact ⟨hTask.1, hMachine⟩
  | whileBody hCondition =>
      obtain ⟨rfl, -⟩ := hValue hTask.1 hCondition
      exact ⟨hTask.2.1, hMachine⟩
  | whileAgain hCondition hTrue hBody =>
      obtain ⟨rfl, -⟩ := hValue hTask.1 hCondition
      have hFrame := (Run.frames_execute _ _ hTask.2.1).of_ok hMachine hBody
      exact ⟨hTask, hFrame.sourced hMachine⟩

/-- Moments of a source lead to such moments only, by induction on the starts. -/
theorem Moment.Sourced.leadsTo {first last : Moment} (h : first.Sourced)
    (hLeads : first.LeadsTo last) : last.Sourced := by
  induction hLeads with
  | refl => exact h
  | tail _ hNext ih =>
      obtain ⟨hStarts⟩ := hNext
      exact hStarts.sourced ih.task ih.machine

/-! ## Tame moments -/

/-- What is evaluated is tame, and no builtin function is called. -/
def Task.Tame : Task → Prop
  | .evaluate e => e.Tame
  | .builtin _ _ => False
  | _ => True

structure Moment.Tame (moment : Moment) : Prop where
  task : moment.task.Tame
  machine : moment.machine.Tame

/-- The expressions of a source are tame, and no function of the language can be called by them. -/
theorem Moment.Sourced.tame {moment : Moment} (h : moment.Sourced) : moment.Tame := by
  obtain ⟨fuel, room, task, machine⟩ := moment
  refine ⟨?_, h.machine.tame⟩
  have hTask := h.task
  cases task with
  | evaluate e => exact Expr.Runnable.tame hTask
  | builtin native arguments => exact hTask
  | _ => exact trivial

/-- No builtin function is called in a tame moment. -/
theorem Moment.Tame.ne_builtin {moment : Moment} (h : moment.Tame) (native : Builtin)
    (arguments : List Value) : moment.task ≠ .builtin native arguments := by
  intro hTask
  have hTaskTame := h.task
  rw [hTask] at hTaskTame
  exact hTaskTame

end Mus
