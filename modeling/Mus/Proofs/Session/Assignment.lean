import Mus.Proofs.Session.Lookup
import Mus.Proofs.Syntax.RoundTrip

/-! Assigning to a variable. The tree of an assignment says to take what the variable
holds and to set the field on it that has the name of the variable. So an assignment
does not set the variable. Where that holds an object, a field of the object is set;
otherwise the assignment fails, and its value is not even evaluated. While a session
runs its sources no variable ever holds an object, so that all assignments to
variables fail. -/
namespace Mus

open Written (Printed Term Word)

def Stmt.assignment (name equals : Token) (value : Expr) : Stmt :=
  .expression (.set (.variable name.lexeme name) name.lexeme value equals)

/-- Why nothing of this name can be set on a value that is no object. -/
def Value.refusal (held : Value) (name : String) : Complaint :=
  match held with
  | .array _ _ => .invalidArrayIndex name
  | _ => .noFields

/-! ## Parsing -/

/-- An assignment that is printed alone is parsed to the statement that assigns. -/
theorem parse_assignment {name : Word [.identifier]} {equals : Word [.assign]} {value : Term}
    {tokens : List Token} {mark : Token}
    (hPrinted : Printed ((Term.setVariable name equals value).print .assignment) tokens)
    (hMark : mark.kind = .eof) :
    parse (tokens ++ [mark]) = .ok ⟨[.assignment name.token equals.token value.expr], []⟩ := by
  have hProgram : Printed (Written.Declaration.printAll
      [.statement (.expression (.setVariable name equals value))]) tokens := by
    simpa [Written.Declaration.printAll, Written.Declaration.print, Written.Statement.print]
      using hPrinted
  exact parse_of_reads (Parse.reads_program hProgram ⟨trivial, by decide, trivial⟩) hMark

/-! ## Executing -/

theorem Store.readVariable_of_find? {store : Store} {place : Nat} {name : String}
    {type : Option String} {held : Value}
    (h : (store.scope place).bindings.find? name = some (type, held)) :
    store.readVariable place name = held := by
  have hFound : store.findVariable? place name = some held :=
    inScopes_of_some (by rw [h]; rfl)
  rw [readVariable, hFound]
  rfl

/-- A field that is written is repeated in the scope of the object and in no other. -/
theorem Store.scope_writeField {store written : Store} {object place : Nat} {name : String}
    {value : Value} (h : store.writeField object name value = some written)
    (hPlace : (store.object object).scope ≠ some place) :
    written.scope place = store.scope place := by
  unfold writeField at h
  dsimp only at h
  split at h
  · split at h
    · next own hOwn =>
      cases h
      have hOther : own ≠ place := fun hSame => hPlace (hOwn.trans (congrArg some hSame))
      simp [scope, defineVariable, changeScope, changeObject, Array.getElem?_modify, hOther]
    · cases h
      rfl
  · split at h
    · cases h
      rfl
    · cases h

namespace Run

variable {machine after : Machine} {name equals : Token} {value : Expr} {held result : Value}
  {fuel room place : Nat}

/-- A value that is no object refuses. The value to be assigned is not evaluated. -/
theorem execute_assignment_refused
    (hHeld : evaluate (fuel + 1) room (.variable name.lexeme name) machine = .ok held machine)
    (hName : Integer.read name.lexeme.toList = .error .malformed)
    (hObject : ∀ place, held ≠ .object place) :
    execute (fuel + 3) room (.assignment name equals value) machine =
      .error (.runtime ⟨held.refusal name.lexeme, equals⟩) machine := by
  rw [Stmt.assignment, execute]
  refine bind_error ?_
  rw [evaluate]
  refine (bind_ok hHeld).trans ?_
  cases held with
  | object place => exact absurd rfl (hObject place)
  | array items element =>
      change assignItem (fuel + 1) room items name.lexeme value equals machine = _
      rw [assignItem, hName]
      rfl
  | _ => rfl

/-- An object takes the value as a field. -/
theorem execute_assignment_object
    (hHeld : evaluate (fuel + 1) room (.variable name.lexeme name) machine =
      .ok (.object place) machine)
    (hValue : evaluate (fuel + 1) room value machine = .ok result after) :
    execute (fuel + 3) room (.assignment name equals value) machine =
      writeField place name.lexeme result after := by
  rw [Stmt.assignment, execute, evaluate, bind_assoc]
  refine (bind_ok hHeld).trans ?_
  change ((do
    let result ← evaluate (fuel + 1) room value
    writeField place name.lexeme result
    return result) >>= fun _ => pure ()) machine = _
  rw [bind_assoc]
  refine (bind_ok hValue).trans ?_
  rw [bind_assoc]
  simp only [pure_bind, bind_pure_unit]

/-- Setting a field of an object leaves the scopes that are not its own. -/
theorem scope_machineAfter_writeField {scope : Nat} {field : String}
    (hScope : (machine.store.object place).scope ≠ some scope) :
    (machineAfter (writeField place field result machine)).store.scope scope =
      machine.store.scope scope := by
  unfold writeField
  cases hWrite : machine.store.writeField place field result with
  | none => rfl
  | some written => exact Store.scope_writeField hWrite hScope

end Run

/-- Data have no fields that could be set. -/
theorem Value.IsData.refusal_eq {held : Value} (h : held.IsData) (name : String) :
    held.refusal name = .noFields := by
  cases held with
  | array => exact absurd h id
  | _ => rfl

/-- On a tame machine an assignment is refused, as data has no fields. -/
theorem Machine.Tame.execute_assignment {machine : Machine} (h : machine.Tame) {name : Token}
    (hPlain : name.Plain) (hName : Integer.read name.lexeme.toList = .error .malformed)
    (fuel room : Nat) (equals : Token) (value : Expr) :
    Run.execute (fuel + 3) room (.assignment name equals value) machine =
      .error (.runtime ⟨.noFields, equals⟩) machine := by
  have hData : (machine.globalVariable name.lexeme).IsData := h.isData_globalVariable
  rw [Run.execute_assignment_refused (h.evaluate_variable hPlain.keyFault?_eq fuel room) hName
    hData.inert.2.2.2, hData.refusal_eq]

/-! ## Running -/

/-- Loading an assignment is loading the lists of its value. -/
theorem Stmt.loadAll_assignment (name equals : Token) (value : Expr) (store : Store) :
    Stmt.loadAll [.assignment name equals value] store =
      ([.assignment name equals (value.load store).1], (value.load store).2) := by
  simp only [Stmt.loadAll, Stmt.assignment, Stmt.load, Expr.load]
  rfl

namespace Session

variable {session : Session} {debug : Bool} {name : Token} {value : Expr}

/-- A program that fails with a complaint. -/
theorem interpret_failing {statements loaded : List Stmt} {store : Store} {after : Machine}
    {error : RuntimeError}
    (hLoad : Stmt.loadAll statements session.machine.store = (loaded, store))
    (hRun : Run.executeAll (Run.stepBound (Stmt.sizeAll loaded)) Run.constructorLimit loaded
      { session.machine with store := store } = .error (.runtime error) after) :
    session.interpret statements = { session with machine := after }.fault (.runtime error) := by
  have hSteps : (do
      let loaded ← Run.load (Stmt.loadAll statements)
      Run.interpret loaded) session.machine = .error (.runtime error) after := by
    rw [bind_ok (Run.load_loadAll hLoad), Run.interpret, Run.wrapped, hRun]
    rfl
  unfold interpret
  dsimp only
  rw [hSteps]

/-- On the machine of a session an assignment is refused, as what a variable holds has
no fields. -/
theorem interpret_assignment (h : session.Tame debug) (hValue : value.Sourced)
    (hPlain : name.Plain) (hName : Integer.read name.lexeme.toList = .error .malformed)
    (equals : Token) : ∃ added, session.interpret [.assignment name equals value] =
      { session with machine := session.machine.withLists added }.fault
        (.runtime ⟨.noFields, equals⟩) := by
  obtain ⟨-, added, hAdded, hStore⟩ := Expr.loads_load hValue session.machine.store
  have hLoad := Stmt.loadAll_assignment name equals value session.machine.store
  rw [hStore] at hLoad
  refine ⟨added, interpret_failing hLoad ?_⟩
  obtain ⟨fuel, hFuel⟩ : ∃ fuel, Run.stepBound (Stmt.sizeAll
      [.assignment name equals (value.load session.machine.store).1]) = fuel + 4 :=
    Nat.exists_eq_add_of_le' (Nat.le_add_right_of_le (by decide))
  rw [hFuel, Run.executeAll]
  exact bind_error ((h.sourced.withLists hAdded).tame.execute_assignment hPlain hName _ _ _ _)

theorem store_tell (text : String) (session : Session) :
    (session.tell text).machine.store = session.machine.store := by
  unfold tell
  split <;> rfl

/-- The lines on what a session does change nothing in its store. -/
theorem store_begun (line : String) (session : Session) :
    (session.begun line).machine.store = session.machine.store := by
  simp only [begun, store_tell]

/-- A source that assigns to a variable fails and leaves all variables, functions,
classes and objects as they were. -/
theorem run_assignment {source : String} {tokens : List Token} {equals : Token}
    (h : session.Tame debug) (hFaultless : session.hadError = false)
    (hTokens : tokenize source = .ok tokens)
    (hParse : parse tokens = .ok ⟨[.assignment name equals value], []⟩) (hMem : name ∈ tokens)
    (hKind : name.kind = .identifier) :
    (session.run source).hadRuntimeError = true ∧
      (∃ added, (session.run source).machine.store = session.machine.store.withLists added) ∧
      (debug = false → (session.run source).machine.output =
        (session.runtimeError ⟨.noFields, equals⟩).machine.output) := by
  obtain ⟨line, hLine⟩ := tokenLine_ok (tokenize_plain hTokens)
  obtain ⟨hRunnable, -⟩ := parse_sourced (tokenize_sourced hTokens) hParse
  have hValue : value.Sourced := by
    rcases hRunnable with hSourced | ⟨token, hEq⟩
    · exact hSourced.2.1
    · cases hEq
  obtain ⟨added, hInterpret⟩ := interpret_assignment (h.begun line) hValue
    (tokenize_plain hTokens name hMem) (read_lexeme hTokens hMem hKind) equals
  have hRun : session.run source =
      { session.begun line with machine := (session.begun line).machine.withLists added }.fault
        (.runtime ⟨.noFields, equals⟩) := by
    rw [run_scanned hTokens hLine hParse, hFaultless]
    exact hInterpret
  obtain ⟨told, hFault⟩ := exists_fault_runtime
    { session.begun line with machine := (session.begun line).machine.withLists added }
    ⟨.noFields, equals⟩
  refine ⟨?_, ⟨added, ?_⟩, fun hDebug => ?_⟩
  · rw [hRun, hFault]
  · rw [hRun, hFault, ← store_begun line session]
    rfl
  · have hQuiet : session.debug = false := h.debug.trans hDebug
    rw [hRun, begun_eq_self hQuiet, Session.fault, tell_eq_self (by exact hQuiet)]
    rfl

/-- An assignment does not set the variable that it names. It is parsed to a statement
that sets a field of the variable's own name on what the variable holds. Where the
global variable holds no object, this fails and the machine stays as it is, without
the value having been evaluated. Where it holds one, the field of the object is
written after the value has been evaluated, and the global variables are as that has
left them, unless the object's own scope is the global one. After any sources of a
session the first is the case, so that the source with the assignment leads to a
report and changes no variable, function, class or object; at most, lists of the
source are added to the store. -/
theorem assignment_sets_no_variable {source : String} {tokens : List Token} {mark : Token}
    {name : Word [.identifier]} {equals : Word [.assign]} {value : Term}
    (hTokens : tokenize source = .ok (tokens ++ [mark]))
    (hPrinted : Printed ((Term.setVariable name equals value).print .assignment) tokens) :
    parse (tokens ++ [mark]) = .ok ⟨[.assignment name.token equals.token value.expr], []⟩ ∧
    (∀ (machine : Machine) (type : Option String) (held : Value), machine.locals = [] →
      (machine.store.scope machine.globals).bindings.find? name.token.lexeme =
        some (type, held) →
      ∀ (fuel room : Nat) (e : Expr),
        ((∀ place, held ≠ .object place) →
          Run.execute (fuel + 3) room (.assignment name.token equals.token e) machine =
            .error (.runtime ⟨held.refusal name.token.lexeme, equals.token⟩) machine) ∧
        ∀ place result after, held = .object place →
          Run.evaluate (fuel + 1) room e machine = .ok result after →
          Run.execute (fuel + 3) room (.assignment name.token equals.token e) machine =
              Run.writeField place name.token.lexeme result after ∧
            ((after.store.object place).scope ≠ some machine.globals →
              (Run.machineAfter (Run.execute (fuel + 3) room
                (.assignment name.token equals.token e) machine)).store.scope machine.globals =
                after.store.scope machine.globals)) ∧
    ∀ debug sources, (afterRuns debug sources).hadError = false →
      ((afterRuns debug sources).run source).hadRuntimeError = true ∧
        (∃ added, ((afterRuns debug sources).run source).machine.store =
          (afterRuns debug sources).machine.store.withLists added) ∧
        (debug = false → ((afterRuns debug sources).run source).machine.output =
          ((afterRuns debug sources).runtimeError
            ⟨.noFields, equals.token⟩).machine.output) := by
  have hMark : mark.kind = .eof := by
    obtain ⟨front, last, hSplit, hLast⟩ := (tokenize_scanned hTokens).2
    obtain ⟨-, hSame⟩ := List.append_inj' hSplit rfl
    cases hSame
    exact hLast
  have hMem : name.token ∈ tokens ++ [mark] := by
    obtain ⟨rest, rfl, -⟩ := Written.printed_word hPrinted
    simp
  have hKind : name.token.kind = .identifier := List.mem_singleton.mp name.kind_mem
  have hParse := parse_assignment hPrinted hMark
  refine ⟨hParse, fun machine type held hLocals hBound fuel room e => ?_, fun debug sources h => ?_⟩
  · have hHeld : Run.evaluate (fuel + 1) room (.variable name.token.lexeme name.token) machine =
        .ok held machine := by
      rw [Run.evaluate_unresolved hLocals (tokenize_plain hTokens _ hMem).keyFault?_eq,
        Store.readVariable_of_find? hBound]
    refine ⟨fun hObject => ?_, fun place result after hPlace hValue => ?_⟩
    · exact Run.execute_assignment_refused hHeld (read_lexeme hTokens hMem hKind) hObject
    · rw [hPlace] at hHeld
      have hExecute : Run.execute (fuel + 3) room (.assignment name.token equals.token e) machine =
          Run.writeField place name.token.lexeme result after :=
        Run.execute_assignment_object hHeld hValue
      refine ⟨hExecute, fun hScope => ?_⟩
      rw [hExecute]
      exact Run.scope_machineAfter_writeField hScope
  · exact run_assignment (tame_afterRuns debug sources) h hTokens hParse hMem hKind

/-- What the global variable of a name shows as. -/
def shownVariable? (session : Session) (name : String) : Option String :=
  (session.machine.store.shown (session.machine.globalVariable name)).toOption

/-- A variable is declared with 1, and a second source assigns 2 to it: the source
fails, and the variable still holds 1. -/
theorem assignment_sets_no_variable_integer :
    (afterRuns false ["var x => integer = 1"]).shownVariable? "x" = some "1" ∧
      ((afterRuns false ["var x => integer = 1"]).run "x = 2").shownVariable? "x" = some "1" ∧
      ((afterRuns false ["var x => integer = 1"]).run "x = 2").hadRuntimeError = true ∧
      ∃ added, ((afterRuns false ["var x => integer = 1"]).run "x = 2").machine.store =
        (afterRuns false ["var x => integer = 1"]).machine.store.withLists added := by
  have hTokens : tokenize "x = 2" = .ok ([⟨.identifier, "x", .nothing, 1, 1⟩,
      ⟨.assign, "=", .nothing, 1, 3⟩, ⟨.integer, "2", .int 2, 1, 5⟩] ++
      [⟨.eof, "", .nothing, 1, 6⟩]) := by
    with_unfolding_all rfl
  have hPrinted : Printed ((Term.setVariable (nameAt "x" 1 1)
      ⟨⟨.assign, "=", .nothing, 1, 3⟩, by decide, _, rfl⟩
      (.literal ⟨⟨.integer, "2", .int 2, 1, 5⟩, by decide,
        tokenize_described hTokens _ (by simp)⟩)).print .assignment)
      [⟨.identifier, "x", .nothing, 1, 1⟩, ⟨.assign, "=", .nothing, 1, 3⟩,
        ⟨.integer, "2", .int 2, 1, 5⟩] :=
    .cons rfl (.cons rfl (.cons rfl .nil))
  obtain ⟨hFails, hStore, -⟩ := (assignment_sets_no_variable hTokens hPrinted).2.2 false
    ["var x => integer = 1"] (by decide +kernel)
  exact ⟨by decide +kernel, by decide +kernel, hFails, hStore⟩

end Session

end Mus
