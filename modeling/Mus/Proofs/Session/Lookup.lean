import Mus.Proofs.Session.DataOnly
import Mus.Proofs.Store.Ancestry

/-! Which variable a name stands for. A name may be bound in many scopes, and in
each of them as a variable, as a function and as a class. While a session runs
sources, though, nothing is ever noted in the resolution table, so that a name
always stands for the variable of the global scope, and for nothing where there is
none. The innermost binding is read only if it is a variable with the same value:
a name that a block declares again, or that stands for a function or a class, is
not found. -/
namespace Mus

/-! ## The innermost binding -/

def Scope.binds (scope : Scope) (name : String) : Bool :=
  scope.bindings.has name || scope.functions.has name || scope.classes.has name

/-- What the name is bound to in the scope. -/
inductive Scope.Offers (scope : Scope) (name : String) : Value → Prop where
  | ofVariable {type : Option String} {value : Value}
      (hBinding : scope.bindings.find? name = some (type, value)) : Offers scope name value
  | ofFunction {place : Nat} (hFunction : scope.functions.find? name = some place) :
      Offers scope name (.function place)
  | ofClass {place : Nat} (hClass : scope.classes.find? name = some place) :
      Offers scope name (.classDef place)

/-- The innermost scope that binds a name, seen from a scope. -/
def Store.innermost? (store : Store) (place : Nat) (name : String) : Option Scope :=
  store.inScopes (fun scope => if scope.binds name then some scope else none) place

/-- The value is the innermost binding of the name, seen from the current scope. -/
def Machine.Resolves (machine : Machine) (name : String) (value : Value) : Prop :=
  ∃ scope, machine.store.innermost? machine.current name = some scope ∧ scope.Offers name value

def Machine.globalVariable (machine : Machine) (name : String) : Value :=
  ((machine.store.scope machine.globals).bindings.find? name).elim .nothing Prod.snd

/-- What is data is bound as a variable. -/
theorem Scope.Offers.find?_of_isData {scope : Scope} {name : String} {value : Value}
    (h : scope.Offers name value) (hData : value.IsData) :
    ∃ type, scope.bindings.find? name = some (type, value) := by
  cases h with
  | ofVariable hBinding => exact ⟨_, hBinding⟩
  | ofFunction | ofClass => exact absurd hData id

/-- A name about which the resolution table says nothing is read from the global scope
on. -/
theorem Run.evaluate_unresolved {machine : Machine} (hLocals : machine.locals = [])
    {name : String} {token : Token} (hToken : token.keyFault? = none) (fuel room : Nat) :
    Run.evaluate (fuel + 1) room (.variable name token) machine =
      .ok (machine.store.readVariable machine.globals name) machine := by
  have hDistance : Run.distance? (.variable name token) machine = .ok none machine := by
    have hKey : (Expr.variable name token).keyFault? = none := hToken
    have hGet : (get : Run Machine) machine = .ok machine machine := rfl
    unfold Run.distance?
    rw [hKey]
    refine (bind_ok hGet).trans ?_
    rw [hLocals]
    rfl
  rw [Run.evaluate]
  exact bind_ok hDistance

namespace Machine.Tame

variable {machine : Machine} {name : String}

/-- On a tame machine the global scope is the outermost, so that reading goes no further. -/
theorem readVariable_globals (h : machine.Tame) :
    machine.store.readVariable machine.globals name = machine.globalVariable name := by
  unfold Store.readVariable Store.findVariable? globalVariable
  rw [h.globals, Store.inScopes_zero]
  cases (machine.store.scope 0).bindings.find? name <;> rfl

/-- A global variable of a tame machine is data. -/
theorem isData_globalVariable (h : machine.Tame) : (machine.globalVariable name).IsData := by
  rw [← h.readVariable_globals]
  exact h.store.readVariable _ _

/-- A name that can be looked for stands for the global variable. -/
theorem evaluate_variable (h : machine.Tame) {token : Token} (hToken : token.keyFault? = none)
    (fuel room : Nat) :
    Run.evaluate (fuel + 1) room (.variable name token) machine =
      .ok (machine.globalVariable name) machine := by
  rw [← h.readVariable_globals]
  exact Run.evaluate_unresolved h.locals hToken fuel room

/-- The global variable is the innermost binding exactly if that is a variable of
the same value. -/
theorem resolves_iff (h : machine.Tame) :
    machine.Resolves name (machine.globalVariable name) ↔
      ∃ scope type, machine.store.innermost? machine.current name = some scope ∧
        scope.bindings.find? name = some (type, machine.globalVariable name) := by
  constructor
  · rintro ⟨scope, hScope, hOffers⟩
    obtain ⟨type, hFind⟩ := hOffers.find?_of_isData h.isData_globalVariable
    exact ⟨scope, type, hScope, hFind⟩
  · rintro ⟨scope, type, hScope, hFind⟩
    exact ⟨scope, hScope, .ofVariable hFind⟩

end Machine.Tame

/-- A name that only the global scope binds, as a variable, is read as such. -/
theorem Machine.resolves_of_global {machine : Machine} {name : String}
    (hScope : machine.store.innermost? machine.current name =
      some (machine.store.scope machine.globals))
    (hBound : (machine.store.scope machine.globals).bindings.has name = true) :
    machine.Resolves name (machine.globalVariable name) := by
  obtain ⟨⟨type, value⟩, hFind⟩ := Option.isSome_iff_exists.mp hBound
  have hValue : machine.globalVariable name = value := by
    rw [globalVariable, hFind]
    rfl
  rw [hValue]
  exact ⟨_, hScope, .ofVariable hFind⟩

theorem Run.evaluate_literal (fuel room : Nat) (value : Value) (token : Token)
    (machine : Machine) :
    Run.evaluate (fuel + 1) room (.literal value token) machine = .ok value machine := by
  rw [Run.evaluate]
  rfl

/-- A variable is declared in the current scope. -/
theorem Run.execute_declaration {fuel room : Nat} {machine after : Machine} {decl : VarDecl}
    {e : Expr} {value : Value} (hInitializer : decl.initializer = some e)
    (hEvaluate : Run.evaluate fuel room e machine = .ok value after)
    (hType : Run.elementType? decl.typeName = none) :
    Run.execute (fuel + 1) room (.varDecl decl) machine = .ok ()
      { after with
        store := after.store.defineVariable after.current decl.name (some decl.typeName)
          value } := by
  rw [Run.execute]
  dsimp only
  rw [hInitializer]
  refine (bind_ok hEvaluate).trans ?_
  unfold Run.initialValue
  rw [hType]
  rfl

namespace Session

/-- Wherever a name is evaluated while a session runs its sources, in whatever
scope, it stands for the global variable. That is its innermost binding exactly if
the innermost scope that binds the name has a variable of the same value, and so
whenever only the global scope binds it, as a variable. -/
theorem evaluates_to_global (debug : Bool) (sources : List String) (source : String)
    {moment : Moment} (h : (afterRuns debug sources).Visits source moment) {name : String}
    {token : Token} (hTask : moment.task = .evaluate (.variable name token)) :
    (∀ fuel room, Run.evaluate (fuel + 1) room (.variable name token) moment.machine =
      .ok (moment.machine.globalVariable name) moment.machine) ∧
    (moment.machine.Resolves name (moment.machine.globalVariable name) ↔
      ∃ scope type, moment.machine.store.innermost? moment.machine.current name = some scope ∧
        scope.bindings.find? name = some (type, moment.machine.globalVariable name)) ∧
    (moment.machine.store.innermost? moment.machine.current name =
        some (moment.machine.store.scope moment.machine.globals) →
      (moment.machine.store.scope moment.machine.globals).bindings.has name = true →
      moment.machine.Resolves name (moment.machine.globalVariable name)) := by
  have hMoment := h.tame (tame_afterRuns debug sources)
  have hToken : token.keyFault? = none := by
    have hTaskTame := hMoment.task
    rw [hTask] at hTaskTame
    exact hTaskTame
  exact ⟨hMoment.machine.evaluate_variable hToken, hMoment.machine.resolves_iff,
    Machine.resolves_of_global⟩

/-- A block declares a variable and returns it: the name is bound to the number in
the block, but it stands for nothing. -/
theorem evaluates_to_global_in_block :
    ∃ moment token,
      (afterRuns false []).Visits "\x7b var x => integer = 2 return x \x7d" moment ∧
        moment.task = .evaluate (.variable "x" token) ∧
        moment.machine.Resolves "x" (.int 2) ∧
        Run.evaluate moment.fuel moment.room (.variable "x" token) moment.machine =
          .ok .nothing moment.machine := by
  have hTokens : tokenize "\x7b var x => integer = 2 return x \x7d" = .ok [
      ⟨.leftBrace, "\x7b", .nothing, 1, 1⟩, ⟨.varWord, "var", .nothing, 1, 3⟩,
      ⟨.identifier, "x", .nothing, 1, 7⟩, ⟨.arrow, "=>", .nothing, 1, 9⟩,
      ⟨.identifier, "integer", .nothing, 1, 12⟩, ⟨.assign, "=", .nothing, 1, 20⟩,
      ⟨.integer, "2", .int 2, 1, 22⟩, ⟨.returnWord, "return", .nothing, 1, 24⟩,
      ⟨.identifier, "x", .nothing, 1, 31⟩, ⟨.rightBrace, "\x7d", .nothing, 1, 33⟩,
      ⟨.eof, "", .nothing, 1, 34⟩] := by
    with_unfolding_all rfl
  obtain ⟨line, hLine⟩ := tokenLine_ok (tokenize_plain hTokens)
  have hFaultless : (afterRuns false []).hadError = false := rfl
  have hFirst := (Begins.intro hFaultless hTokens hLine rfl rfl).visits
  have hBlock := (hFirst.step ⟨.firstStatement⟩).step ⟨.block rfl⟩
  have hDeclared := hBlock.step
    ⟨.moreStatements (Run.execute_declaration rfl (Run.evaluate_literal ..) (by decide))⟩
  have hReturn := (hDeclared.step ⟨.firstStatement⟩).step ⟨.returned⟩
  obtain ⟨hEvaluates, -⟩ := evaluates_to_global false [] _ hReturn rfl
  refine ⟨_, _, hReturn, rfl, ⟨_, Store.inScopes_of_some rfl, .ofVariable rfl⟩, hEvaluates _ _⟩

end Session

end Mus
