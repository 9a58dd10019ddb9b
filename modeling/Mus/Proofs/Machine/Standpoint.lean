import Mus.Proofs.Machine.Looking
import Mus.Proofs.Machine.Rules
import Mus.Session

/-! The standpoint of a machine: its current scope, its global scope and its
resolution table, which together settle what a name refers to. Running code may
enter inner scopes, but however it ends, it gives the standpoint back. -/
namespace Mus

/-- The second machine stands where the first one does. Their stores and what
they have printed may differ. -/
structure Machine.SameStandpoint (before after : Machine) : Prop where
  current : after.current = before.current
  globals : after.globals = before.globals
  locals : after.locals = before.locals

namespace Machine.SameStandpoint

theorem refl (machine : Machine) : machine.SameStandpoint machine := ⟨rfl, rfl, rfl⟩

theorem trans {first second third : Machine} (h₁ : first.SameStandpoint second)
    (h₂ : second.SameStandpoint third) : first.SameStandpoint third :=
  ⟨h₂.current.trans h₁.current, h₂.globals.trans h₁.globals, h₂.locals.trans h₁.locals⟩

end Machine.SameStandpoint

namespace Run

variable {α β : Type}

/-- The machine that steps leave behind, whether they end with a result or with
a fault of any kind. -/
def machineAfter : EStateM.Result Fault Machine α → Machine
  | .ok _ after => after
  | .error _ after => after

/-- The scope that was current before comes back. -/
theorem machineAfter_inScope (scope : Nat) (steps : Run α) (machine : Machine) :
    machineAfter (inScope scope steps machine) =
      { machineAfter (steps { machine with current := scope }) with
        current := machine.current } := by
  unfold inScope
  cases steps { machine with current := scope } <;> rfl

/-- A fault that is blamed on an index leaves the machine as it was met. -/
theorem machineAfter_blaming (name : String) (token : Token) (steps : Run Value)
    (machine : Machine) :
    machineAfter (blaming name token steps machine) = machineAfter (steps machine) := by
  unfold blaming
  cases steps machine with
  | ok value after => rfl
  | error fault after =>
      cases fault with
      | text failure => cases failure <;> rfl
      | _ => rfl

/-- A return that ends the body of a constructor leaves the machine as it was met. -/
theorem machineAfter_constructing (object : Nat) (body : Run Unit) (machine : Machine) :
    machineAfter (constructing object body machine) = machineAfter (body machine) := by
  unfold constructing
  cases body machine with
  | ok value after => rfl
  | error fault after => cases fault <;> rfl

/-- Steps in turn lead along a relation of machines, wherever they end, if each of them
does and the relation can be followed from one machine to the next. -/
theorem along_bind (Along : Machine → Machine → Prop)
    (hTrans : ∀ {first second third}, Along first second → Along second third →
      Along first third) {steps : Run α} {next : α → Run β}
    (hSteps : ∀ machine, Along machine (machineAfter (steps machine)))
    (hNext : ∀ value machine, Along machine (machineAfter (next value machine)))
    (machine : Machine) : Along machine (machineAfter ((steps >>= next) machine)) := by
  have hFirst := hSteps machine
  cases hRun : steps machine with
  | ok value after =>
      rw [hRun] at hFirst
      rw [bind_ok hRun]
      exact hTrans hFirst (hNext value after)
  | error fault after =>
      rw [hRun] at hFirst
      rw [bind_error hRun]
      exact hFirst

/-- Steps that end where they started, from every machine. -/
def Stays (steps : Run α) : Prop :=
  ∀ machine : Machine, machine.SameStandpoint (machineAfter (steps machine))

/-- Steps that stay, one after the other, stay together. -/
theorem stays_bind {steps : Run α} {next : α → Run β} (hSteps : Stays steps)
    (hNext : ∀ value, Stays (next value)) : Stays (steps >>= next) :=
  along_bind Machine.SameStandpoint .trans hSteps hNext

/-- Steps may depend on the machine that they find. -/
theorem stays_look {next : Machine → Run α} (hNext : ∀ machine, Stays (next machine)) :
    Stays (get >>= next) :=
  fun machine => hNext machine machine

/-- The only place where the current scope changes: it is given back after a
result and after a fault. -/
theorem stays_inScope (scope : Nat) {steps : Run α} (hSteps : Stays steps) :
    Stays (inScope scope steps) := by
  intro machine
  have hInner := hSteps { machine with current := scope }
  rw [machineAfter_inScope]
  exact ⟨rfl, hInner.globals, hInner.locals⟩

/-! ## Steps on the store -/

/-- Steps that change nothing but the store. -/
def StoreOnly (steps : Run α) : Prop :=
  ∀ machine : Machine, ∃ store, machineAfter (steps machine) = { machine with store := store }

/-- Neither the current scope nor the resolution table is in the store. -/
theorem StoreOnly.stays {steps : Run α} (h : StoreOnly steps) : Stays steps := by
  intro machine
  obtain ⟨store, hAfter⟩ := h machine
  rw [hAfter]
  exact ⟨rfl, rfl, rfl⟩

theorem storeOnly_pure (value : α) : StoreOnly (pure value : Run α) :=
  fun machine => ⟨machine.store, rfl⟩

theorem storeOnly_throw (fault : Fault) : StoreOnly (throw fault : Run α) :=
  fun machine => ⟨machine.store, rfl⟩

theorem storeOnly_get : StoreOnly (get : Run Machine) :=
  fun machine => ⟨machine.store, rfl⟩

/-- Changes of the store, one after the other, are one change of the store. -/
theorem storeOnly_bind {steps : Run α} {next : α → Run β} (hSteps : StoreOnly steps)
    (hNext : ∀ value, StoreOnly (next value)) : StoreOnly (steps >>= next) := by
  refine along_bind (fun before after => ∃ store, after = { before with store := store }) ?_
    hSteps hNext
  rintro first _ _ ⟨store, rfl⟩ ⟨later, rfl⟩
  exact ⟨later, rfl⟩

theorem storeOnly_withStore (change : Store → α × Store) : StoreOnly (withStore change) :=
  fun machine => ⟨(change machine.store).2, rfl⟩

theorem storeOnly_changeStore (change : Store → Store) : StoreOnly (changeStore change) :=
  fun machine => ⟨change machine.store, rfl⟩

/-- A new scope is added to the store. It is entered only by what comes next. -/
theorem storeOnly_innerScope : StoreOnly innerScope :=
  storeOnly_bind storeOnly_get fun _ => storeOnly_withStore _

/-- What leaves a machine as it is changes nothing but its store. -/
theorem Looks.storeOnly {good : α → Prop} {steps : Run α} (h : Looks Eq True good steps) :
    StoreOnly steps := by
  intro machine
  obtain ⟨outcome, -, hRun, -⟩ := h machine machine rfl
  rw [hRun]
  cases outcome with
  | ok value => exact ⟨machine.store, rfl⟩
  | error fault => exact ⟨machine.store, rfl⟩

/-! ## The operations of the language

All of them but the builtin functions work on the store alone. -/

theorem storeOnly_complain (complaint : Complaint) (token : Token) :
    StoreOnly (complain complaint token : Run α) :=
  storeOnly_throw _

theorem storeOnly_distance? (e : Expr) : StoreOnly (distance? e) := by
  unfold distance?
  split
  · exact storeOnly_throw _
  · refine storeOnly_bind storeOnly_get fun machine => ?_
    split <;> exact storeOnly_pure _

theorem storeOnly_readAt (scope : Nat) (distance : Int) (name : String) :
    StoreOnly (readAt scope distance name) := by
  refine storeOnly_bind storeOnly_get fun machine => ?_
  cases machine.store.readAt scope distance name with
  | some value => exact storeOnly_pure _
  | none => exact storeOnly_throw _

theorem storeOnly_readVariable (name : String) (e : Expr) : StoreOnly (readVariable name e) := by
  refine storeOnly_bind (storeOnly_distance? e) fun found => ?_
  cases found with
  | some distance => exact storeOnly_bind storeOnly_get fun _ => storeOnly_readAt _ _ _
  | none => exact storeOnly_bind storeOnly_get fun _ => storeOnly_pure _

theorem storeOnly_shown (value : Value) : StoreOnly (shown value) :=
  (looks_shown fun _ _ h => h ▸ rfl).storeOnly

/-- Operators look at the store and change nothing. -/
theorem storeOnly_binary (operator : Token) (left right : Value) :
    StoreOnly (binary operator left right) :=
  (looks_binary operator (fun _ _ h => h ▸ rfl) (fun _ _ h => h ▸ rfl)
    fun _ _ h => h ▸ rfl).storeOnly

theorem storeOnly_unary (operator : Token) (right : Value) : StoreOnly (unary operator right) :=
  (looks_unary operator right).storeOnly

theorem storeOnly_itemIndex (items : Items) (index : Value) :
    StoreOnly (itemIndex items index) :=
  Looks.storeOnly (looks_itemIndex (fun _ _ => congrArg Machine.store) items index)

theorem storeOnly_writeItem (items : Items) (index value : Value) :
    StoreOnly (writeItem items index value) :=
  storeOnly_bind (storeOnly_itemIndex items index) fun _ => storeOnly_changeStore _

theorem storeOnly_arrayProperty (items : Items) (name : String) (token : Token) :
    StoreOnly (arrayProperty items name token) :=
  Looks.storeOnly (looks_arrayProperty (fun _ _ => congrArg Machine.store) items name token)

/-- Reading a field may bind a method, which adds to the store. -/
theorem storeOnly_readField (object : Nat) (name : String) : StoreOnly (readField object name) := by
  intro machine
  unfold readField
  cases machine.store.readField object name with
  | some found => exact ⟨_, rfl⟩
  | none => exact ⟨_, rfl⟩

theorem storeOnly_writeField (object : Nat) (name : String) (value : Value) :
    StoreOnly (writeField object name value) := by
  intro machine
  unfold writeField
  cases machine.store.writeField object name value with
  | some store => exact ⟨_, rfl⟩
  | none => exact ⟨_, rfl⟩

theorem storeOnly_superclass? : StoreOnly superclass? := by
  refine storeOnly_bind storeOnly_get fun machine => ?_
  dsimp only
  split
  · exact storeOnly_throw _
  · split <;> exact storeOnly_pure _

theorem storeOnly_superMethod (e : Expr) (method : String) (token : Token) :
    StoreOnly (superMethod e method token) := by
  refine storeOnly_bind (storeOnly_distance? e) fun found => ?_
  cases found with
  | none => exact storeOnly_complain _ _
  | some distance =>
      refine storeOnly_bind storeOnly_superclass? fun parent => ?_
      cases parent with
      | none => exact storeOnly_complain _ _
      | some classPlace =>
          refine storeOnly_bind storeOnly_get fun machine => ?_
          cases machine.store.method? classPlace method with
          | some function => exact storeOnly_pure _
          | none => exact storeOnly_complain _ _

/-- The value with which a variable starts may need a new cell. -/
theorem storeOnly_initialValue (typeName : String) (value : Value) :
    StoreOnly (initialValue typeName value) := by
  unfold initialValue
  split
  · exact storeOnly_pure _
  · split
    · exact storeOnly_pure _
    · exact storeOnly_pure _
    · exact storeOnly_withStore _

theorem storeOnly_parentClass (superclass : Option String) (token : Token) :
    StoreOnly (parentClass superclass token) := by
  unfold parentClass
  split
  · exact storeOnly_pure _
  · split
    · exact storeOnly_pure _
    · refine storeOnly_bind storeOnly_get fun machine => ?_
      split
      · exact storeOnly_pure _
      · exact storeOnly_complain _ _

/-! ## Evaluation and execution -/

/-- Declarations are entered in scopes, which are in the store. -/
theorem storeOnly_declare (change : Nat → Store → Store) : StoreOnly (declare change) :=
  storeOnly_bind storeOnly_get fun _ => storeOnly_changeStore _

/-- The current scope is back at the end of a block, however it ends. -/
theorem stays_within (change : Nat → Store → Store) {steps : Run α} (hSteps : Stays steps) :
    Stays (within change steps) :=
  stays_bind storeOnly_innerScope.stays fun scope =>
    stays_bind (storeOnly_changeStore _).stays fun _ => stays_inScope scope hSteps

/-- A return only ends the body of a constructor; the scope has been left by then. -/
theorem stays_enter (bound object : Nat) (values : List Value) {body : List Stmt → Run Unit}
    (hBody : ∀ statements, Stays (body statements)) :
    Stays (enter bound object values body) := by
  refine stays_look fun ready => stays_bind (storeOnly_withStore _).stays fun scope =>
    stays_bind (storeOnly_changeStore _).stays fun _ machine => ?_
  rw [machineAfter_constructing]
  exact stays_inScope scope (hBody _) machine

/-- All that a program does gives the standpoint back. -/
theorem rules_stays : Rules Stays Stays where
  pure _ machine := .refl machine
  fault _ machine := .refl machine
  bind := stays_bind
  look _ hNext := stays_look hNext
  print _ _ := ⟨rfl, rfl, rfl⟩
  addCell _ := (storeOnly_withStore _).stays
  setItem _ _ _ := (storeOnly_changeStore _).stays
  readField object name := (storeOnly_readField object name).stays
  writeField object name value := (storeOnly_writeField object name value).stays
  createInstance _ := (storeOnly_withStore _).stays
  bindMethod _ _ := (storeOnly_withStore _).stays
  blaming name token steps hSteps machine := by
    rw [machineAfter_blaming]
    exact hSteps machine
  enter bound object values _ hBody := stays_enter bound object values hBody
  lift h := h
  returned _ machine := .refl machine
  sequence := stays_bind
  observe _ hNext := stays_look hNext
  declareVariable _ _ _ := (storeOnly_declare _).stays
  declareFunction _ _ _ := (storeOnly_declare _).stays
  declareClass _ superclass _ token _ hFields :=
    stays_bind (storeOnly_parentClass superclass token).stays fun _ =>
      stays_bind hFields fun _ => (storeOnly_declare _).stays
  block hSteps := stays_within _ hSteps
  turn _ _ _ hSteps := stays_within _ hSteps

/-- The report of a fault leaves the machine as the fault has left it. -/
theorem machineAfter_wrapped (steps : Run α) (machine : Machine) :
    machineAfter (wrapped steps machine) = machineAfter (steps machine) := by
  unfold wrapped
  cases steps machine <;> rfl

theorem stays_wrapped {steps : Run α} (hSteps : Stays steps) : Stays (wrapped steps) := by
  intro machine
  rw [machineAfter_wrapped]
  exact hSteps machine

/-- A program ends where it started. -/
theorem stays_interpret (statements : List Stmt) : Stays (interpret statements) :=
  stays_wrapped (rules_stays.executeAll _ _ statements)

end Run

/-! ## Sessions -/

namespace Session

theorem sameStandpoint_say (text : String) (session : Session) :
    session.machine.SameStandpoint (session.say text).machine :=
  ⟨rfl, rfl, rfl⟩

theorem sameStandpoint_tell (text : String) (session : Session) :
    session.machine.SameStandpoint (session.tell text).machine := by
  unfold tell
  split
  · exact sameStandpoint_say text session
  · exact .refl _

theorem sameStandpoint_error (line column : Int) (message : String) (session : Session) :
    session.machine.SameStandpoint (session.error line column message).machine :=
  ⟨rfl, rfl, rfl⟩

theorem sameStandpoint_runtimeError (error : RuntimeError) (session : Session) :
    session.machine.SameStandpoint (session.runtimeError error).machine :=
  ⟨rfl, rfl, rfl⟩

theorem sameStandpoint_lexFault (fault : LexFault) (session : Session) :
    session.machine.SameStandpoint (session.lexFault fault).machine := by
  cases fault with
  | unexpected c line column =>
      exact (sameStandpoint_error line column _ session).trans (sameStandpoint_tell _ _)
  | unterminated line column =>
      exact (sameStandpoint_error line column _ session).trans (sameStandpoint_tell _ _)
  | malformedNumber text => exact ⟨rfl, rfl, rfl⟩
  | numberTooLong digits => exact ⟨rfl, rfl, rfl⟩
  | pastEnd => exact ⟨rfl, rfl, rfl⟩

theorem sameStandpoint_fault (fault : Fault) (session : Session) :
    session.machine.SameStandpoint (session.fault fault).machine := by
  unfold Session.fault
  split
  · exact (sameStandpoint_runtimeError _ session).trans (sameStandpoint_tell _ _)
  · split <;> exact ⟨rfl, rfl, rfl⟩

/-- A session that interprets a program reports faults and does nothing else. -/
theorem sameStandpoint_interpret (statements : List Stmt) (session : Session) :
    session.machine.SameStandpoint (session.interpret statements).machine := by
  have hSteps : Run.Stays (do
      let loaded ← Run.load (Stmt.loadAll statements)
      Run.interpret loaded) :=
    Run.stays_bind (Run.storeOnly_withStore _).stays fun loaded => Run.stays_interpret loaded
  have hMachine := hSteps session.machine
  unfold interpret
  dsimp only
  split
  · next result after hRun =>
    rw [hRun] at hMachine
    exact hMachine
  · next failure after hRun =>
    rw [hRun] at hMachine
    exact hMachine.trans (sameStandpoint_fault failure { session with machine := after })

/-- Nothing is run of a faulty source, and its errors are reported. -/
theorem sameStandpoint_runTokens (tokens : List Token) (session : Session) :
    session.machine.SameStandpoint (session.runTokens tokens).machine := by
  have hTold := sameStandpoint_tell "\nParsing..." session
  unfold runTokens
  dsimp only
  split
  · exact hTold.trans ⟨rfl, rfl, rfl⟩
  · split
    · exact hTold
    · exact (hTold.trans (sameStandpoint_tell _ _)).trans (sameStandpoint_interpret _ _)

/-- Whatever a source does, the next one starts from the same standpoint. -/
theorem sameStandpoint_run (source : String) (session : Session) :
    session.machine.SameStandpoint (session.run source).machine := by
  have hTold := sameStandpoint_tell "\nLexical analysis..." session
  unfold run
  dsimp only
  split
  · exact hTold.trans (sameStandpoint_lexFault _ _)
  · split
    · split
      · exact (hTold.trans (sameStandpoint_say _ _)).trans (sameStandpoint_runTokens _ _)
      · exact hTold.trans ⟨rfl, rfl, rfl⟩
    · exact hTold.trans (sameStandpoint_runTokens _ _)

/-- Every input leaves the session where it was. -/
theorem sameStandpoint_answer (input : Input) (session : Session) :
    session.machine.SameStandpoint (session.answer input).1.machine := by
  unfold answer
  split
  · split
    · exact .refl _
    · split
      · exact .refl _
      · exact sameStandpoint_run _ session
  · exact ⟨rfl, rfl, rfl⟩
  · exact ⟨rfl, rfl, rfl⟩

/-- By induction on the inputs. -/
theorem sameStandpoint_answerAll (inputs : List Input) (session : Session) :
    session.machine.SameStandpoint (session.answerAll inputs).machine := by
  induction inputs generalizing session with
  | nil => exact ⟨rfl, rfl, rfl⟩
  | cons input rest ih =>
      have hPrompt : session.machine.SameStandpoint session.prompt.machine := ⟨rfl, rfl, rfl⟩
      have hAnswer := hPrompt.trans (sameStandpoint_answer input session.prompt)
      unfold answerAll
      split
      · next after hRun =>
        rw [hRun] at hAnswer
        exact hAnswer.trans (ih after)
      · next after hRun =>
        rw [hRun] at hAnswer
        exact hAnswer

end Session

/-- However an expression, a statement or a program ends, by a result, a
complaint, a return or any other fault, and within whatever bounds it is run,
the machine stands afterwards where it stood before. The next source of a
session and the next line typed find it there. -/
theorem standpoint_restored :
    (∀ (fuel room : Nat) (e : Expr) (machine : Machine),
      machine.SameStandpoint (Run.machineAfter (Run.evaluate fuel room e machine))) ∧
    (∀ (fuel room : Nat) (stmt : Stmt) (machine : Machine),
      machine.SameStandpoint (Run.machineAfter (Run.execute fuel room stmt machine))) ∧
    (∀ (statements : List Stmt) (machine : Machine),
      machine.SameStandpoint (Run.machineAfter (Run.interpret statements machine))) ∧
    (∀ (source : String) (session : Session),
      session.machine.SameStandpoint (session.run source).machine) ∧
    (∀ (inputs : List Input) (session : Session),
      session.machine.SameStandpoint (session.answerAll inputs).machine) :=
  ⟨Run.rules_stays.evaluate, Run.rules_stays.execute, Run.stays_interpret,
    Session.sameStandpoint_run, Session.sameStandpoint_answerAll⟩

end Mus
