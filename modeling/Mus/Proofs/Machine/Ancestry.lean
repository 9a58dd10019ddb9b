import Mus.Proofs.Machine.Moment
import Mus.Proofs.Machine.Rules
import Mus.Proofs.Store.Ancestry

/-! Parents in all states of a machine. However a machine is used, by hand or by running
programs, and also while a program is still running, the parent of a scope or a class
is older than it and stays the same. So every look-up ends: it goes along a finite line
of ancestors. -/
namespace Mus

/-! ## What steps build -/

/-- The store of the machine is linked, and the current scope is there. -/
def Machine.Linked (machine : Machine) : Prop := machine.store.Linked machine.current

/-- The second machine has a later store of the first one and is linked if the first one
is. -/
structure Machine.Builds (before after : Machine) : Prop where
  kept : before.store.Extends after.store
  linked : before.Linked → after.Linked

namespace Machine

namespace Builds

theorem refl (machine : Machine) : machine.Builds machine :=
  ⟨.refl machine.store, id⟩

theorem trans {first second third : Machine} (h₁ : first.Builds second)
    (h₂ : second.Builds third) : first.Builds third :=
  ⟨h₁.kept.trans h₂.kept, fun h => h₂.linked (h₁.linked h)⟩

end Builds

variable {machine : Machine}

/-- A scope inside the current one has a parent that is there. -/
theorem Linked.current_lt (h : machine.Linked) (above : Nat)
    (hAbove : some machine.current = some above) : above < machine.store.scopes.size :=
  Option.some.inj hAbove ▸ h.current

/-- A change of the store that builds on it is one of the machine, which stands where it did. -/
theorem builds_store {store : Store} (h : machine.store.Builds machine.current store) :
    machine.Builds { machine with store := store } :=
  ⟨h.kept, h.linked⟩

/-- A new scope is entered once it is ready. -/
theorem builds_entered {parent : Option Nat}
    (hParent : machine.Linked → ∀ above, parent = some above →
      above < machine.store.scopes.size) {ready : Store}
    (hReady : (machine.store.addScope { parent := parent }).2.Builds machine.current ready) :
    machine.Builds { machine with store := ready, current := machine.store.scopes.size } := by
  have hBuilds := (Store.builds_addInner hParent).trans hReady
  refine ⟨hBuilds.kept, fun h => { hBuilds.linked h with current := ?_ }⟩
  refine Nat.lt_of_lt_of_le ?_ hReady.kept.scopes
  simp [Store.addScope]

end Machine

namespace Run

variable {α β : Type}

/-- Steps that leave a later machine, however they end. -/
def Builds (steps : Run α) : Prop :=
  ∀ machine : Machine, machine.Builds (machineAfter (steps machine))

/-- Steps that end with a result leave a later machine, in particular. -/
theorem Builds.ok {steps : Run α} (h : Builds steps) {machine after : Machine} {value : α}
    (hRun : steps machine = .ok value after) : machine.Builds after := by
  have hAfter := h machine
  rw [hRun] at hAfter
  exact hAfter

theorem builds_pure (value : α) : Builds (pure value : Run α) := fun machine => .refl machine

/-- Steps that build, one after the other, build together. -/
theorem builds_bind {steps : Run α} {next : α → Run β} (hSteps : Builds steps)
    (hNext : ∀ value, Builds (next value)) : Builds (steps >>= next) :=
  along_bind Machine.Builds .trans hSteps hNext

/-- Steps may depend on the machine that they find. -/
theorem builds_look {next : Machine → Run α} (hNext : ∀ machine, Builds (next machine)) :
    Builds (get >>= next) :=
  fun machine => hNext machine machine

theorem builds_withStore {change : Store → α × Store}
    (h : ∀ (current : Nat) (store : Store), store.Builds current (change store).2) :
    Builds (withStore change) :=
  fun machine => Machine.builds_store (h machine.current machine.store)

theorem builds_changeStore {change : Store → Store}
    (h : ∀ (current : Nat) (store : Store), store.Builds current (change store)) :
    Builds (changeStore change) :=
  fun machine => Machine.builds_store (h machine.current machine.store)

theorem builds_declare {change : Nat → Store → Store}
    (h : ∀ (current : Nat) (store : Store), store.Builds current (change current store)) :
    Builds (declare change) :=
  fun machine => Machine.builds_store (h machine.current machine.store)

/-- Steps in a scope that is there. -/
theorem builds_inScope {scope : Nat} {steps : Run α} (hSteps : Builds steps) {machine : Machine}
    (hScope : scope < machine.store.scopes.size) :
    machine.Builds (machineAfter (inScope scope steps machine)) := by
  have hInner := hSteps { machine with current := scope }
  rw [machineAfter_inScope]
  refine ⟨hInner.kept, fun h => ?_⟩
  have hLinked := hInner.linked { h with current := hScope }
  exact { hLinked with current := Nat.lt_of_lt_of_le h.current hInner.kept.scopes }

/-- Steps in a new scope once it is ready. -/
theorem builds_inNewScope {machine : Machine} {parent : Option Nat}
    (hParent : machine.Linked → ∀ above, parent = some above →
      above < machine.store.scopes.size) {ready : Store}
    (hReady : (machine.store.addScope { parent := parent }).2.Builds machine.current ready)
    {steps : Run α} (hSteps : Builds steps) :
    machine.Builds
      (machineAfter (inScope machine.store.scopes.size steps { machine with store := ready })) := by
  have hThere : machine.store.scopes.size < ready.scopes.size := by
    refine Nat.lt_of_lt_of_le ?_ hReady.kept.scopes
    simp [Store.addScope]
  refine Machine.Builds.trans ?_ (builds_inScope hSteps hThere)
  exact Machine.builds_store ((Store.builds_addInner hParent).trans hReady)

/-- The new scope is inside the current one, and the current one is back at the end. -/
theorem builds_within {change : Nat → Store → Store}
    (hChange : ∀ (current scope : Nat) (store : Store), store.Builds current (change scope store))
    {steps : Run α} (hSteps : Builds steps) : Builds (within change steps) := by
  intro machine
  exact builds_inNewScope Machine.Linked.current_lt (hChange machine.current _ _) hSteps

/-- Parameters are only entered in a scope, by induction on them. -/
theorem builds_defineParameters (current scope : Nat) (params : Params) (values : List Value)
    (store : Store) : store.Builds current (defineParameters scope params values store) := by
  fun_induction defineParameters scope params values store with
  | case1 name type params value values store ih =>
      exact (Store.builds_defineVariable store scope name (some type) value).trans ih
  | case2 => exact .refl _

/-- The scope of the arguments is inside that of the bound constructor, which is there. -/
theorem builds_enter (bound object : Nat) (values : List Value) {body : List Stmt → Run Unit}
    (hBody : ∀ statements, Builds (body statements)) :
    Builds (enter bound object values body) := by
  intro machine
  have hBuilds := builds_inNewScope (fun h => h.closures bound)
    (builds_defineParameters machine.current machine.store.scopes.size
      (machine.store.function bound).params values _) (hBody (machine.store.function bound).body)
  rw [← machineAfter_constructing object] at hBuilds
  exact hBuilds

theorem builds_blaming (name : String) (token : Token) {steps : Run Value}
    (hSteps : Builds steps) : Builds (blaming name token steps) := by
  intro machine
  rw [machineAfter_blaming]
  exact hSteps machine

/-- Reading a field may add a scope and a function, when a method is bound. -/
theorem builds_readField (object : Nat) (name : String) : Builds (readField object name) := by
  intro machine
  unfold readField
  cases hRead : machine.store.readField object name with
  | none => exact .refl machine
  | some entry => exact Machine.builds_store (Store.builds_readField hRead)

/-- Writing a field makes no parent of anything. -/
theorem builds_writeField (object : Nat) (name : String) (value : Value) :
    Builds (writeField object name value) := by
  intro machine
  unfold writeField
  cases hWrite : machine.store.writeField object name value with
  | none => exact .refl machine
  | some store => exact Machine.builds_store (Store.builds_writeField hWrite)

theorem builds_assignVariable (scope : Nat) (name : String) (value : Value) :
    Builds (assignVariable scope name value) := by
  intro machine
  unfold assignVariable
  cases hSet : machine.store.setVariable scope name value with
  | none => exact .refl machine
  | some store => exact Machine.builds_store (Store.builds_setVariable hSet)

/-! ## Declarations of classes -/

/-- The methods of a class get the current scope as closure, which is there. -/
theorem builds_addMethods {current : Nat} (methods : List FunDecl) (table : Table Nat)
    (store : Store) : store.Builds current (addMethods current methods table store).2 := by
  induction methods generalizing table store with
  | nil => exact .refl store
  | cons decl rest ih =>
      refine (Store.builds_addFunction ?_).trans (ih _ _)
      rintro h scope ⟨⟩
      exact h.current

theorem extends_declareClass (name : String) (methods : List FunDecl) (parent : Option Nat)
    (fields : Table (String × Value)) (current : Nat) (store : Store) :
    store.Extends (declareClass name methods parent fields current store) :=
  (builds_addMethods methods [] store).kept.trans (Store.extends_defineClass _ _ _ _ _ _)

/-- A class may extend what is there. Its parent is then older, also if the class takes its name. -/
theorem builds_declareClass (name : String) (methods : List FunDecl) {parent : Option Nat}
    (fields : Table (String × Value)) {current : Nat} {store : Store}
    (hParent : ∀ above, parent = some above → above < store.classes.size) :
    store.Builds current (declareClass name methods parent fields current store) := by
  have hMethods := @builds_addMethods current methods [] store
  refine hMethods.trans (Store.builds_defineClass (fun h => h.current) name fields _ ?_)
  exact fun _ above hAbove => Nat.lt_of_lt_of_le (hParent above hAbove) hMethods.kept.classes

/-- The class that a class is to extend is there. Nothing is changed to find it. -/
theorem parentClass_cases (superclass : Option String) (token : Token) (machine : Machine) :
    (∃ parent, parentClass superclass token machine = .ok parent machine ∧
      (machine.Linked → ∀ above, parent = some above → above < machine.store.classes.size)) ∨
    ∃ fault, parentClass superclass token machine = .error fault machine := by
  cases superclass with
  | none => exact Or.inl ⟨none, rfl, fun _ _ hAbove => by cases hAbove⟩
  | some name =>
      by_cases hName : name = ""
      · subst hName
        exact Or.inl ⟨none, rfl, fun _ _ hAbove => by cases hAbove⟩
      · have hLook : (get : Run Machine) machine = .ok machine machine := rfl
        unfold parentClass
        dsimp only
        rw [if_neg hName, bind_ok hLook]
        cases hFound : machine.store.class? machine.current name with
        | none =>
            exact Or.inr ⟨.runtime ⟨.superclassUnknown name, token⟩, rfl⟩
        | some parent =>
            refine Or.inl ⟨some parent, rfl, ?_⟩
            rintro h above ⟨⟩
            exact h.lt_of_class? hFound

/-- The superclass that is found is one that is there. -/
theorem builds_parentClass (superclass : Option String) (token : Token) :
    Builds (parentClass superclass token) := by
  intro machine
  rcases parentClass_cases superclass token machine with ⟨parent, hRun, -⟩ | ⟨fault, hRun⟩ <;>
  · rw [hRun]
    exact .refl machine

/-- The class is declared after the defaults of its fields have been evaluated. What it
extends is still there. -/
theorem builds_classDeclaration (name : String) (superclass : Option String)
    (methods : List FunDecl) (token : Token) {fields : Run (Table (String × Value))}
    (hFields : Builds fields) :
    Builds (do
      let parent ← parentClass superclass token
      let table ← fields
      declare (declareClass name methods parent table)) := by
  intro machine
  rcases parentClass_cases superclass token machine with ⟨parent, hRun, hThere⟩ | ⟨fault, hRun⟩
  · rw [bind_ok hRun]
    have hAfter := hFields machine
    cases hTable : fields machine with
    | error fault after =>
        rw [hTable] at hAfter
        rw [bind_error hTable]
        exact hAfter
    | ok table after =>
        rw [hTable] at hAfter
        rw [bind_ok hTable]
        refine ⟨hAfter.kept.trans (extends_declareClass _ _ _ _ _ _), fun h => ?_⟩
        refine (builds_declareClass name methods table fun above hAbove => ?_).linked
          (hAfter.linked h)
        exact Nat.lt_of_lt_of_le (hThere h above hAbove) hAfter.kept.classes
  · rw [bind_error hRun]
    exact .refl machine

/-- All that a program does leaves a later machine. -/
theorem rules_builds : Rules Builds Builds where
  pure := builds_pure
  fault _ := fun machine => .refl machine
  bind := builds_bind
  look _ hNext := builds_look hNext
  print _ := fun machine => ⟨.refl machine.store, id⟩
  addCell items := builds_withStore fun _ store => store.builds_addCell items
  setItem items index value :=
    builds_changeStore fun _ store => store.builds_setItem items index value
  readField := builds_readField
  writeField := builds_writeField
  createInstance classPlace :=
    builds_withStore fun _ store => store.builds_createInstance classPlace
  bindMethod function object := builds_withStore fun _ store => store.builds_bind function object
  blaming name token _ hSteps := builds_blaming name token hSteps
  enter bound object values _ hBody := builds_enter bound object values hBody
  lift h := h
  returned _ := fun machine => .refl machine
  sequence := builds_bind
  observe _ hNext := builds_look hNext
  declareVariable name type value :=
    builds_declare fun current store => store.builds_defineVariable current name type value
  declareFunction name params body :=
    builds_declare fun _ _ => Store.builds_defineFunction (fun h => h.current) name params body
  declareClass name superclass methods token _ hFields :=
    builds_classDeclaration name superclass methods token hFields
  block hSteps := builds_within (fun _ _ store => .refl store) hSteps
  turn iterator item _ hSteps :=
    builds_within (fun _ scope store => store.builds_defineVariable scope iterator _ item) hSteps

end Run

/-! ## Machines in the middle of a run -/

/-- An object has been made and its constructor has been bound. -/
theorem Machine.builds_bound {machine : Machine} {place object init bound : Nat}
    {created ready : Store} (hCreate : machine.store.createInstance place = (object, created))
    (hBind : created.bind init object = (bound, ready)) :
    machine.Builds { machine with store := ready } := by
  have hCreated := @Store.builds_createInstance machine.current machine.store place
  have hBound := @Store.builds_bind machine.current created init object
  rw [hCreate] at hCreated
  rw [hBind] at hBound
  exact builds_store (hCreated.trans hBound)

/-- A machine that a run comes to on its way is a later one. -/
theorem Starts.builds {fuel room : Nat} {machine : Machine} {task : Task} {next : Moment}
    (h : Starts fuel room machine task next) : machine.Builds next.machine := by
  have hEvaluate (e : Expr) := Run.rules_builds.evaluate fuel room e
  have hExecute (stmt : Stmt) := Run.rules_builds.execute fuel room stmt
  cases h with
  | binaryRight hLeft => exact (hEvaluate _).ok hLeft
  | callArguments hCallee => exact (hEvaluate _).ok hCallee
  | callBuiltin hCallee hArguments _ =>
      exact ((hEvaluate _).ok hCallee).trans
        ((Run.rules_builds.evaluateAll fuel room _).ok hArguments)
  | callClass hCallee => exact (hEvaluate _).ok hCallee
  | setItem hObject => exact (hEvaluate _).ok hObject
  | setField hObject => exact (hEvaluate _).ok hObject
  | moreArguments hFirst => exact (hEvaluate _).ok hFirst
  | initArguments hCreate hInit hBind => exact Machine.builds_bound hCreate hBind
  | initBody hCreate hInit hBind hArguments hRoom hScope =>
      cases hScope
      refine ((Machine.builds_bound hCreate hBind).trans
        ((Run.rules_builds.evaluateAll fuel room _).ok hArguments)).trans ?_
      exact Machine.builds_entered (fun h => h.closures _) (Run.builds_defineParameters _ _ _ _ _)
  | moreStatements hFirst => exact (hExecute _).ok hFirst
  | classFields hParent => exact (Run.builds_parentClass _ _).ok hParent
  | block hScope =>
      cases hScope
      exact Machine.builds_entered Machine.Linked.current_lt (.refl _)
  | thenBranch hCondition _ => exact (hEvaluate _).ok hCondition
  | elseBranch hCondition _ => exact (hEvaluate _).ok hCondition
  | each hIterable => exact (hEvaluate _).ok hIterable
  | moreFields hField => exact (Run.rules_builds.fieldDefault fuel room _).ok hField
  | whileBody hCondition _ => exact (hEvaluate _).ok hCondition
  | whileAgain hCondition _ hBody =>
      exact ((hEvaluate _).ok hCondition).trans ((hExecute _).ok hBody)
  | forBody hItem hScope =>
      cases hScope
      exact Machine.builds_entered Machine.Linked.current_lt (Store.builds_defineVariable _ _ _ _ _)
  | @forAgain _ _ _ _ _ _ _ after hItem hScope hBody =>
      cases hScope
      have hAfter : Run.machineAfter _ = after := congrArg Run.machineAfter hBody
      rw [← hAfter]
      exact Run.builds_inNewScope Machine.Linked.current_lt
        (Store.builds_defineVariable _ _ _ _ _) (hExecute _)
  | _ => exact .refl machine

/-! ## All states of a machine -/

/-- One thing that is done with a machine. What is made refers only to what is there. -/
inductive Machine.Step (machine : Machine) : Machine → Prop where
  -- Things that are made
  | newScope {scope : Scope}
      (hParent : ∀ above, scope.parent = some above → above < machine.store.scopes.size)
      (hClasses : ∀ name classPlace, scope.classes.find? name = some classPlace →
        classPlace < machine.store.classes.size) :
      Step machine { machine with store := (machine.store.addScope scope).2 }
  | newFunction {function : Function}
      (hClosure : ∀ scope, function.closure = some scope → scope < machine.store.scopes.size) :
      Step machine { machine with store := (machine.store.addFunction function).2 }
  | newClass {classDef : ClassDef}
      (hParent : ∀ above, classDef.parent = some above → above < machine.store.classes.size)
      (hScope : ∀ scope, classDef.scope = some scope → scope < machine.store.scopes.size) :
      Step machine { machine with store := (machine.store.addClass classDef).2 }
  | newObject (object : Object) :
      Step machine { machine with store := (machine.store.addObject object).2 }
  | newLists (added : Array (List Value)) : Step machine (machine.withLists added)
  | createInstance (classPlace : Nat) :
      Step machine { machine with store := (machine.store.createInstance classPlace).2 }
  | bind (function object : Nat) :
      Step machine { machine with store := (machine.store.bind function object).2 }
  -- Declarations and assignments
  | defineVariable (place : Nat) (name : String) (type : Option String) (value : Value) :
      Step machine { machine with store := machine.store.defineVariable place name type value }
  | defineFunction {place : Nat} (hPlace : place < machine.store.scopes.size) (name : String)
      (params : Params) (body : List Stmt) :
      Step machine { machine with store := machine.store.defineFunction place name params body }
  | defineClass {place : Nat} (hPlace : place < machine.store.scopes.size) (name : String)
      (fields : Table (String × Value)) (methods : Table Nat) {parent : Option Nat}
      (hParent : ∀ above, parent = some above → above < machine.store.classes.size) :
      Step machine
        { machine with store := (machine.store.defineClass place name fields methods parent).2 }
  | setVariable (place : Nat) (name : String) (value : Value) :
      Step machine (Run.machineAfter (Run.assignVariable place name value machine))
  | readField (object : Nat) (name : String) :
      Step machine (Run.machineAfter (Run.readField object name machine))
  | writeField (object : Nat) (name : String) (value : Value) :
      Step machine (Run.machineAfter (Run.writeField object name value machine))
  | setItem (items : Items) (index : Nat) (value : Value) :
      Step machine { machine with store := machine.store.setItem items index value }
  -- What is not in the store
  | enter {place : Nat} (hPlace : place < machine.store.scopes.size) :
      Step machine { machine with current := place }
  | resolve (e : Expr) (distance : Int) :
      Step machine (Run.machineAfter (Run.resolve e distance machine))
  | print (text : String) : Step machine (machine.print text)
  -- Code that runs
  | evaluate (fuel room : Nat) (e : Expr) :
      Step machine (Run.machineAfter (Run.evaluate fuel room e machine))
  | execute (fuel room : Nat) (stmt : Stmt) :
      Step machine (Run.machineAfter (Run.execute fuel room stmt machine))
  | starts {fuel room : Nat} {task : Task} {next : Moment}
      (hStarts : Starts fuel room machine task next) : Step machine next.machine

/-- The second machine comes from the first one, in any number of steps. -/
abbrev Machine.LeadsTo : Machine → Machine → Prop := Relation.ReflTransGen Machine.Step

/-- The machine comes from a new one. -/
abbrev Machine.Reached (machine : Machine) : Prop := Machine.initial.LeadsTo machine

theorem Run.builds_resolve (e : Expr) (distance : Int) : Run.Builds (Run.resolve e distance) := by
  refine Run.builds_bind (Run.rules_builds.distance? e) fun found => ?_
  cases found <;> exact fun machine => ⟨.refl machine.store, id⟩

/-- Whatever is done with a machine, it is a later one then. -/
theorem Machine.Step.builds {machine later : Machine} (h : machine.Step later) :
    machine.Builds later := by
  cases h with
  | newScope hParent hClasses =>
      exact builds_store (Store.builds_addScope (fun _ => hParent) fun _ => hClasses)
  | newFunction hClosure => exact builds_store (Store.builds_addFunction fun _ => hClosure)
  | newClass hParent hScope =>
      exact builds_store (Store.builds_addClass (fun _ => hParent) fun _ => hScope)
  | newObject object => exact builds_store (machine.store.builds_addObject object)
  | newLists added => exact ⟨{ Store.Extends.refl machine.store with }, fun h => { h with }⟩
  | createInstance classPlace => exact builds_store (machine.store.builds_createInstance classPlace)
  | bind function object => exact builds_store (machine.store.builds_bind function object)
  | defineVariable place name type value =>
      exact builds_store (machine.store.builds_defineVariable place name type value)
  | defineFunction hPlace name params body =>
      exact builds_store (Store.builds_defineFunction (fun _ => hPlace) name params body)
  | defineClass hPlace name fields methods hParent =>
      exact builds_store
        (Store.builds_defineClass (fun _ => hPlace) name fields methods fun _ => hParent)
  | setVariable place name value => exact Run.builds_assignVariable place name value machine
  | readField object name => exact Run.builds_readField object name machine
  | writeField object name value => exact Run.builds_writeField object name value machine
  | setItem items index value => exact builds_store (machine.store.builds_setItem items index value)
  | enter hPlace => exact ⟨.refl machine.store, fun h => { h with current := hPlace }⟩
  | resolve e distance => exact Run.builds_resolve e distance machine
  | print text => exact ⟨.refl machine.store, id⟩
  | evaluate fuel room e => exact Run.rules_builds.evaluate fuel room e machine
  | execute fuel room stmt => exact Run.rules_builds.execute fuel room stmt machine
  | starts hStarts => exact hStarts.builds

/-- By induction on the steps, each of which builds on the one before. -/
theorem Machine.LeadsTo.builds {machine later : Machine} (h : machine.LeadsTo later) :
    machine.Builds later := by
  induction h with
  | refl => exact .refl machine
  | tail _ hStep ih => exact ih.trans hStep.builds

/-- A new machine has one scope and no classes. -/
theorem Machine.linked_initial : Machine.initial.Linked := by
  have hScope (place : Nat) : (initial.store.scope place).parent = none ∧
      (initial.store.scope place).classes = [] := by
    cases place <;> exact ⟨rfl, rfl⟩
  have hFunction (place : Nat) : (initial.store.function place).closure = none := by
    rcases place with _ | _ | place <;> rfl
  refine ⟨fun place above hAbove => ?_, fun place above hAbove => ?_,
    fun place scope hClosure => ?_, fun place scope hHome => ?_,
    fun place name classPlace hFound => ?_, by decide⟩
  · cases (hScope place).1.symm.trans hAbove
  · cases hAbove
  · cases (hFunction place).symm.trans hClosure
  · cases hHome
  · rw [(hScope place).2] at hFound
    cases hFound

/-- Parents are older on every machine that can come about. -/
theorem Machine.Reached.linked {machine : Machine} (h : machine.Reached) : machine.Linked :=
  (Machine.LeadsTo.builds h).linked linked_initial

/-! ## Look-ups -/

/-- All look-ups of names from a scope go along a finite line of ever older scopes. -/
structure Machine.ScopeLine (machine : Machine) (place : Nat) (line : List Nat) : Prop where
  ancestry : Ancestry machine.store.scopeParent place line
  descending : line.Pairwise (· > ·)
  readVariable : ∀ name, machine.store.readVariable place name =
    (line.findSome? fun scope =>
      ((machine.store.scope scope).bindings.find? name).map Prod.snd).getD .nothing
  setVariable : ∀ name value, machine.store.setVariable place name value =
    line.findSome? fun scope => ((machine.store.scope scope).bindings.find? name).map fun entry =>
      machine.store.defineVariable scope name entry.1 value
  function? : ∀ name, machine.store.function? place name =
    line.findSome? fun scope => (machine.store.scope scope).functions.find? name
  class? : ∀ name, machine.store.class? place name =
    line.findSome? fun scope => (machine.store.scope scope).classes.find? name

/-- All look-ups of methods in a class and of fields in its objects go along a finite
line of ever older classes. A field that is missing is reported with the oldest one. -/
structure Machine.ClassLine (machine : Machine) (place : Nat) (line : List Nat) : Prop where
  ancestry : Ancestry machine.store.classParent place line
  descending : line.Pairwise (· > ·)
  method? : ∀ name, machine.store.method? place name =
    line.findSome? fun classPlace => (machine.store.classDef classPlace).methods.find? name
  readOwn : ∀ object name value, (machine.store.object object).classDef = place →
    (machine.store.object object).fields.find? name = some value →
    Run.readField object name machine = .ok value machine
  readMethod : ∀ object name method, (machine.store.object object).classDef = place →
    (machine.store.object object).fields.find? name = none →
    (line.findSome? fun classPlace =>
      (machine.store.classDef classPlace).methods.find? name) = some method →
    Run.readField object name machine = .ok (.function (machine.store.bind method object).1)
      { machine with store := (machine.store.bind method object).2 }
  readMissing : ∀ object name oldest, (machine.store.object object).classDef = place →
    (machine.store.object object).fields.find? name = none →
    (line.findSome? fun classPlace =>
      (machine.store.classDef classPlace).methods.find? name) = none →
    line.getLast? = some oldest →
    Run.readField object name machine =
      .error (.fieldMissing name (machine.store.classDef oldest).name) machine
  write : ∀ object name value, (machine.store.object object).classDef = place →
    ((machine.store.object object).fields.has name = true ∨
      ∃ classPlace ∈ line, (machine.store.classDef classPlace).fields.has name = true) →
    ∃ store, machine.store.writeField object name value = some store ∧
      Run.writeField object name value machine = .ok () { machine with store := store }
  writeMissing : ∀ object name value oldest, (machine.store.object object).classDef = place →
    (machine.store.object object).fields.has name = false →
    (∀ classPlace ∈ line, (machine.store.classDef classPlace).fields.has name = false) →
    line.getLast? = some oldest →
    Run.writeField object name value machine =
      .error (.fieldMissing name (machine.store.classDef oldest).name) machine

/-- From every scope there is a line of ever older ones, along which names are looked up. -/
theorem Machine.Linked.exists_scopeLine {machine : Machine} (h : machine.Linked) (place : Nat) :
    ∃ line, machine.ScopeLine place line := by
  obtain ⟨line, hLine⟩ := h.scopes.exists_ancestry place
  refine ⟨line, hLine, h.scopes.descending hLine, fun name => ?_, fun name value => ?_,
    fun name => ?_, fun name => ?_⟩
  · unfold Store.readVariable Store.findVariable?
    rw [Store.inScopes_eq_findSome? h.scopes _ hLine]
  · exact Store.setVariable_eq_findSome? h.scopes name value hLine
  · exact Store.inScopes_eq_findSome? h.scopes _ hLine
  · exact Store.inScopes_eq_findSome? h.scopes _ hLine

/-- From every class there is a line of ever older ones, along which methods and fields are looked
up. -/
theorem Machine.Linked.exists_classLine {machine : Machine} (h : machine.Linked) (place : Nat) :
    ∃ line, machine.ClassLine place line := by
  obtain ⟨line, hLine⟩ := h.classes.exists_ancestry place
  have hMethod (name : String) := Store.method?_eq_findSome? h.classes name hLine
  have hDeclares (name : String) := Store.declares_eq_any h.classes name hLine
  have hRoot := Store.getLast?_eq_rootClass h.classes hLine
  refine ⟨line, hLine, h.classes.descending hLine, hMethod, ?_, ?_, ?_, ?_, ?_⟩
  · rintro object name value - hField
    unfold Run.readField Store.readField
    rw [hField]
  · rintro object name method rfl hField hFound
    unfold Run.readField Store.readField
    rw [hField, hMethod, hFound]
  · rintro object name oldest rfl hField hFound hOldest
    cases Option.some.inj (hRoot.symm.trans hOldest)
    unfold Run.readField Store.readField
    rw [hField, hMethod, hFound]
  · rintro object name value rfl hDeclared
    have hWritten := machine.store.isSome_writeField object name value
    rw [hDeclares] at hWritten
    have hSome : (machine.store.writeField object name value).isSome = true := by
      rw [hWritten, Bool.or_eq_true_iff, List.any_eq_true]
      exact hDeclared
    obtain ⟨store, hStore⟩ := Option.isSome_iff_exists.mp hSome
    refine ⟨store, hStore, ?_⟩
    unfold Run.writeField
    rw [hStore]
  · rintro object name value oldest rfl hField hFields hOldest
    cases Option.some.inj (hRoot.symm.trans hOldest)
    have hWritten := machine.store.isSome_writeField object name value
    rw [hDeclares, hField, List.any_eq_false.mpr fun classPlace hClass => ?_] at hWritten
    · unfold Run.writeField
      rw [Option.isSome_eq_false_iff.mp hWritten |> Option.isNone_iff_eq_none.mp]
    · rw [hFields classPlace hClass]
      exact Bool.false_ne_true

/-- Whatever is done with a machine, parents are older than what they are the parents
of and never change, so that there are no cycles among them. Every look-up of a
variable, function, class, method or field ends after a line of ancestors. -/
theorem Machine.parents_well_founded {machine : Machine} (h : machine.Reached) :
    Older machine.store.scopeParent ∧ Older machine.store.classParent ∧
    (WellFounded fun above place => machine.store.scopeParent place = some above) ∧
    (WellFounded fun above place => machine.store.classParent place = some above) ∧
    (∀ later, machine.LeadsTo later → machine.store.Extends later.store) ∧
    (∀ place, ∃ line, machine.ScopeLine place line) ∧
    ∀ place, ∃ line, machine.ClassLine place line := by
  have hLinked := Machine.Reached.linked h
  exact ⟨hLinked.scopes, hLinked.classes, hLinked.scopes.wellFounded, hLinked.classes.wellFounded,
    fun _ hLater => (Machine.LeadsTo.builds hLater).kept, hLinked.exists_scopeLine,
    hLinked.exists_classLine⟩

/-- A machine on which a class has been declared and then another one that extends it and
takes its name. -/
def Machine.redeclared : Machine :=
  let first : Stmt := .classDecl "A" none [] [] .nowhere
  let second : Stmt := .classDecl "A" (some "A") [] [] .nowhere
  Run.machineAfter (Run.execute 2 0 second (Run.machineAfter (Run.execute 2 0 first .initial)))

/-- A class that extends one of its own name has the older one as its parent. -/
theorem Machine.parents_well_founded_redeclared :
    redeclared.Reached ∧ redeclared.store.class? 0 "A" = some 1 ∧
    redeclared.store.classParent 1 = some 0 ∧
    ∃ line, Ancestry redeclared.store.classParent 1 line ∧ line.Pairwise (· > ·) := by
  have hReached : redeclared.Reached :=
    (Relation.ReflTransGen.refl.tail (.execute 2 0 _)).tail (.execute 2 0 _)
  obtain ⟨-, -, -, -, -, -, hLines⟩ := parents_well_founded hReached
  obtain ⟨line, hLine⟩ := hLines 1
  exact ⟨hReached, by decide +kernel, by decide +kernel, line, hLine.ancestry, hLine.descending⟩

end Mus
