import Mus.Proofs.Machine.Printing
import Mus.Proofs.Session.Running
import Mus.Proofs.Syntax.Emitted

/-! Sessions work on data only. However many sources a session has run, with
whatever outcome, no variable and no field of a class holds a function, a class,
an object or an array. So calls fail, the builtin functions are never reached,
and a program prints nothing: a session that does not tell what it does prints
reports only. -/
namespace Mus

/-- The first moment of a program that has been loaded on a machine. -/
def Moment.first (loaded : List Stmt) (store : Store) (machine : Machine) : Moment :=
  ⟨Run.stepBound (Stmt.sizeAll loaded), Run.constructorLimit, .executeAll loaded,
    { machine with store := store }⟩

/-- Loading the program of a source on a machine of sources. -/
theorem Moment.sourced_first {statements loaded : List Stmt} {store : Store} {machine : Machine}
    (h : Stmt.AllSourced statements) (hMachine : machine.Sourced)
    (hLoad : Stmt.loadAll statements machine.store = (loaded, store)) :
    (Moment.first loaded store machine).Sourced := by
  obtain ⟨hLoaded, added, hAdded, hStore⟩ := Stmt.loads_loadAll h machine.store
  rw [hLoad] at hLoaded hStore
  subst hStore
  exact ⟨hLoaded, hMachine.withLists hAdded⟩

namespace Run

theorem load_loadAll {statements loaded : List Stmt} {store : Store} {machine : Machine}
    (hLoad : Stmt.loadAll statements machine.store = (loaded, store)) :
    load (Stmt.loadAll statements) machine = .ok loaded { machine with store := store } := by
  unfold load withStore StateT.run
  dsimp only
  rw [hLoad]

/-- A program of a source keeps a machine one of sources and prints nothing. -/
theorem interpret_sourced {statements : List Stmt} (h : Stmt.AllSourced statements)
    {machine : Machine} (hMachine : machine.Sourced) {result : EStateM.Result Fault Machine Unit}
    (hResult : (do
      let loaded ← load (Stmt.loadAll statements)
      interpret loaded) machine = result) :
    (machineAfter result).Sourced ∧ (machineAfter result).output = machine.output := by
  obtain ⟨loaded, store, hLoad⟩ :
      ∃ loaded store, Stmt.loadAll statements machine.store = (loaded, store) := ⟨_, _, rfl⟩
  have hFirst := Moment.sourced_first h hMachine hLoad
  rw [← hResult, bind_ok (load_loadAll hLoad), interpret, machineAfter_wrapped]
  have hFrame := frames_executeAll (stepBound (Stmt.sizeAll loaded)) constructorLimit hFirst.task
    _ hFirst.machine
  exact ⟨hFrame.sourced hFirst.machine, hFirst.silent⟩

end Run

namespace Session

variable {session : Session} {source line : String} {tokens : List Token} {program : Program}

/-! ## Running a source -/

/-- The session that begins to run the program of a source, given the line that
lists its tokens. -/
def begun (line : String) (session : Session) : Session :=
  (((session.tell "\nLexical analysis...").tell line).tell "\nParsing...").tell "\nInterpreting..."

/-- A source that can be scanned and parsed is run, unless an earlier one was faulty. -/
theorem run_scanned (hTokens : tokenize source = .ok tokens)
    (hLine : tokenLine tokens = .ok line) (hParse : parse tokens = .ok program) :
    session.run source =
      if session.hadError then
        ((session.tell "\nLexical analysis...").tell line).tell "\nParsing..."
      else (session.begun line).interpret program.statements := by
  have hTell : session.run source =
      ((session.tell "\nLexical analysis...").tell line).runTokens tokens := by
    unfold run
    dsimp only
    rw [hTokens]
    dsimp only
    rw [hLine]
    dsimp only
    conv_rhs => rw [tell]
    split <;> rfl
  rw [hTell]
  unfold runTokens
  dsimp only
  rw [hParse]
  dsimp only
  rw [hadError_tell, hadError_tell, hadError_tell]
  rfl

/-- Every source is scanned, listed and parsed, or cannot be scanned. -/
theorem scanned_cases (source : String) :
    (∃ failure, tokenize source = .error failure) ∨
      ∃ tokens line program, tokenize source = .ok tokens ∧ tokenLine tokens = .ok line ∧
        parse tokens = .ok program ∧ Stmt.AllSourced program.statements := by
  cases hTokens : tokenize source with
  | error failure => exact Or.inl ⟨failure, rfl⟩
  | ok tokens =>
      obtain ⟨line, hLine⟩ := tokenLine_ok (tokenize_plain hTokens)
      obtain ⟨program, hParse⟩ := parse_scanned hTokens
      exact Or.inr ⟨tokens, line, program, rfl, hLine, hParse,
        parse_sourced (tokenize_sourced hTokens) hParse⟩

/-! ## The session after a run -/

/-- The machine of the session is one of sources, and so it is tame; and it is fixed
whether the session tells what it does. -/
structure Tame (debug : Bool) (session : Session) : Prop where
  sourced : session.machine.Sourced
  debug : session.debug = debug

namespace Tame

variable {debug : Bool}

theorem machine (h : session.Tame debug) : session.machine.Tame :=
  h.sourced.tame

/-- A new session is tame. -/
theorem start (debug : Bool) : (Session.start debug).Tame debug :=
  ⟨Machine.sourced_initial, rfl⟩

/-- Printing keeps a session tame. -/
theorem printed (h : session.Tame debug) (text : String) : (session.printed text).Tame debug :=
  ⟨⟨h.sourced.store, h.sourced.locals, h.sourced.globals⟩, h.debug⟩

theorem tell (h : session.Tame debug) (text : String) : (session.tell text).Tame debug := by
  obtain ⟨told, hTell⟩ := session.exists_tell text
  rw [hTell]
  exact h.printed told

theorem begun (h : session.Tame debug) (line : String) : (session.begun line).Tame debug :=
  (((h.tell _).tell _).tell _).tell _

/-- A session may also note that something went wrong. -/
theorem noted (h : session.Tame debug) (hadError hadRuntimeError : Bool) :
    Tame debug { session with hadError := hadError, hadRuntimeError := hadRuntimeError } :=
  ⟨h.sourced, h.debug⟩

theorem lexFault (h : session.Tame debug) (fault : LexFault) :
    (session.lexFault fault).Tame debug := by
  unfold Session.lexFault
  split
  · exact ((h.printed _).noted _ _).tell _
  · exact ((h.printed _).noted _ _).tell _
  · exact (h.printed _).noted _ _

/-- A report keeps a session tame, whatever failed. -/
theorem fault (h : session.Tame debug) (fault : Fault) : (session.fault fault).Tame debug := by
  unfold Session.fault
  split
  · exact ((h.printed _).noted _ _).tell _
  · split <;> exact (h.printed _).noted _ _

/-- A program of a source keeps a session tame: its statements keep the frame of the machine. -/
theorem interpret (h : session.Tame debug) {statements : List Stmt}
    (hStatements : Stmt.AllSourced statements) : (session.interpret statements).Tame debug := by
  unfold Session.interpret
  dsimp only
  split
  · next machine hOk => exact ⟨(Run.interpret_sourced hStatements h.sourced hOk).1, h.debug⟩
  · next failure machine hError =>
    have hStopped : Tame debug { session with machine := machine } :=
      ⟨(Run.interpret_sourced hStatements h.sourced hError).1, h.debug⟩
    exact hStopped.fault failure

/-- A source keeps the session tame, whatever it is and however it ends. -/
theorem run (h : session.Tame debug) (source : String) : (session.run source).Tame debug := by
  rcases scanned_cases source with ⟨failure, hTokens⟩ |
    ⟨tokens, line, program, hTokens, hLine, hParse, hSourced⟩
  · unfold Session.run
    dsimp only
    rw [hTokens]
    exact (h.tell _).lexFault _
  · rw [run_scanned hTokens hLine hParse]
    split
    · exact ((h.tell _).tell _).tell _
    · exact (h.begun line).interpret hSourced

end Tame

/-- A session after it has run sources one after another from the start. -/
def afterRuns (debug : Bool) (sources : List String) : Session :=
  sources.foldl (fun session source => session.run source) (start debug)

/-- Whatever sources a session has run, it is tame. By induction on them, each one parsed to
statements of a source. -/
theorem tame_afterRuns (debug : Bool) (sources : List String) :
    (afterRuns debug sources).Tame debug :=
  List.foldlRecOn sources _ (Tame.start debug) fun _ h source _ => h.run source

/-! ## The moments of a run -/

/-- The first moment of running a source on a session. There is none after a faulty
source. -/
inductive Begins (session : Session) (source : String) : Moment → Prop where
  | intro {tokens : List Token} {line : String} {program : Program} {loaded : List Stmt}
      {store : Store} (hFaultless : session.hadError = false)
      (hTokens : tokenize source = .ok tokens) (hLine : tokenLine tokens = .ok line)
      (hParse : parse tokens = .ok program)
      (hLoad : Stmt.loadAll program.statements (session.begun line).machine.store =
        (loaded, store)) :
      Begins session source (.first loaded store (session.begun line).machine)

def Visits (session : Session) (source : String) (moment : Moment) : Prop :=
  ∃ first, session.Begins source first ∧ first.LeadsTo moment

/-- The first moment of a run is one of its moments. -/
theorem Begins.visits {moment : Moment} (h : session.Begins source moment) :
    session.Visits source moment :=
  ⟨moment, h, .refl⟩

/-- What a moment of a run starts is a moment of the run. -/
theorem Visits.step {moment next : Moment} (h : session.Visits source moment)
    (hNext : moment.Next next) : session.Visits source next := by
  obtain ⟨first, hFirst, hLeads⟩ := h
  exact ⟨first, hFirst, hLeads.tail hNext⟩

/-- All moments of a run are of a source. -/
theorem Visits.sourced {moment : Moment} (h : session.Visits source moment) {debug : Bool}
    (hSession : session.Tame debug) : moment.Sourced := by
  obtain ⟨first, ⟨hFaultless, hTokens, hLine, hParse, hLoad⟩, hLeads⟩ := h
  have hSourced := parse_sourced (tokenize_sourced hTokens) hParse
  exact (Moment.sourced_first hSourced (hSession.begun _).sourced hLoad).leadsTo hLeads

/-- All moments of running a source on a tame session are tame. -/
theorem Visits.tame {moment : Moment} (h : session.Visits source moment) {debug : Bool}
    (hSession : session.Tame debug) : moment.Tame :=
  (h.sourced hSession).tame

/-! ## What is printed -/

/-- The second session has printed nothing more than the first one, or one
report, or one line on what should not happen. -/
def Reports (before after : Session) : Prop :=
  after.machine.output = before.machine.output ∨
    (∃ line column subject message, after.machine.output =
      (before.report line column subject message).machine.output) ∨
    ∃ message, after.machine.output = (before.unexpected message).machine.output

/-- A report is printed behind what has been printed before. -/
theorem Reports.of_output_eq {before middle after : Session} (h : Reports middle after)
    (hOutput : middle.machine.output = before.machine.output) : Reports before after := by
  have hSay (text : String) : (middle.say text).machine.output = (before.say text).machine.output :=
    congrArg (· ++ (text ++ "\n")) hOutput
  rcases h with hSame | ⟨line, column, subject, message, hReport⟩ | ⟨message, hUnexpected⟩
  · exact Or.inl (hSame.trans hOutput)
  · exact Or.inr (Or.inl ⟨line, column, subject, message, hReport.trans (hSay _)⟩)
  · exact Or.inr (Or.inr ⟨message, hUnexpected.trans (hSay _)⟩)

/-- A session that does not tell what it does prints nothing of it. -/
theorem tell_eq_self (hDebug : session.debug = false) (text : String) :
    session.tell text = session := by
  unfold tell
  rw [hDebug]
  rfl

theorem begun_eq_self (hDebug : session.debug = false) (line : String) :
    session.begun line = session := by
  unfold begun
  rw [tell_eq_self hDebug, tell_eq_self hDebug, tell_eq_self hDebug, tell_eq_self hDebug]

theorem reports_fault (hDebug : session.debug = false) (fault : Fault) :
    Reports session (session.fault fault) := by
  unfold Session.fault
  split
  · next error =>
    rw [tell_eq_self (by exact hDebug)]
    exact Or.inr (Or.inl ⟨_, _, _, _, rfl⟩)
  · split <;> exact Or.inr (Or.inr ⟨_, rfl⟩)

theorem reports_lexFault (hDebug : session.debug = false) (fault : LexFault) :
    Reports session (session.lexFault fault) := by
  unfold lexFault
  split
  · rw [tell_eq_self (by exact hDebug)]
    exact Or.inr (Or.inl ⟨_, _, _, _, rfl⟩)
  · rw [tell_eq_self (by exact hDebug)]
    exact Or.inr (Or.inl ⟨_, _, _, _, rfl⟩)
  · exact Or.inr (Or.inr ⟨_, rfl⟩)

/-- A program of a source prints nothing itself, so that the session prints at most one report. -/
theorem reports_interpret (h : session.Tame false) {statements : List Stmt}
    (hStatements : Stmt.AllSourced statements) :
    Reports session (session.interpret statements) := by
  unfold interpret
  dsimp only
  split
  · next machine hOk => exact Or.inl (Run.interpret_sourced hStatements h.sourced hOk).2
  · next failure machine hError =>
    have hStopped : ({ session with machine := machine } : Session).debug = false := h.debug
    exact (reports_fault hStopped failure).of_output_eq
      (Run.interpret_sourced hStatements h.sourced hError).2

/-- A session that does not tell what it does prints at most one report for a
source. -/
theorem reports_run (h : session.Tame false) (source : String) :
    Reports session (session.run source) := by
  have hDebug := h.debug
  rcases scanned_cases source with ⟨failure, hTokens⟩ |
    ⟨tokens, line, program, hTokens, hLine, hParse, hSourced⟩
  · unfold run
    dsimp only
    rw [hTokens, tell_eq_self hDebug]
    exact reports_lexFault hDebug _
  · rw [run_scanned hTokens hLine hParse, tell_eq_self hDebug, tell_eq_self hDebug,
      tell_eq_self hDebug, begun_eq_self hDebug]
    split
    · exact Or.inl rfl
    · exact reports_interpret h hSourced

/-- Whatever sources a session has run, all variables and all defaults of fields
are data. While it runs a further source, each call and each expression that
reads or sets a property fails, and not for want of steps; and no builtin function
is reached. If the session does not tell what it does, the source leads to one
report at most. -/
theorem runs_on_data (debug : Bool) (sources : List String) :
    (afterRuns debug sources).machine.store.HoldsData ∧
      ∀ source,
        (∀ moment, (afterRuns debug sources).Visits source moment →
          moment.machine.store.HoldsData ∧
          (∀ e target, moment.task = .evaluate e → e.target? = some target → ∀ fuel room,
            ∃ fault, Run.evaluate fuel room e moment.machine = .error fault moment.machine ∧
              (e.size ≤ fuel → fault ≠ .outOfFuel)) ∧
          ∀ native arguments, moment.task ≠ .builtin native arguments) ∧
        (debug = false →
          Reports (afterRuns debug sources) ((afterRuns debug sources).run source)) := by
  have hTame := tame_afterRuns debug sources
  refine ⟨hTame.machine.store, fun source => ⟨fun moment hVisits => ?_, fun hDebug => ?_⟩⟩
  · have hMoment := hVisits.tame hTame
    refine ⟨hMoment.machine.store, fun e target hTask hTarget fuel room => ?_,
      hMoment.ne_builtin⟩
    have hExpr : e.Tame := by
      have hTaskTame := hMoment.task
      rw [hTask] at hTaskTame
      exact hTaskTame
    exact Run.evaluate_target_fails fuel room hExpr hTarget hMoment.machine
  · subst hDebug
    exact reports_run hTame source

/-- After a source that declares a variable, a second source calls it: the call
is reached and fails. -/
theorem runs_on_data_call :
    ∃ moment callee arguments token,
      (afterRuns false ["var f => integer = 1"]).Visits "f(2)" moment ∧
        moment.task = .evaluate (.call callee arguments token) ∧
        ∃ fault, Run.evaluate moment.fuel moment.room (.call callee arguments token)
          moment.machine = .error fault moment.machine ∧ fault ≠ .outOfFuel := by
  have hFaultless : (afterRuns false ["var f => integer = 1"]).hadError = false := by
    have hTokens : ∃ tokens, tokenize "var f => integer = 1" = .ok tokens :=
      ⟨_, by with_unfolding_all rfl⟩
    obtain ⟨tokens, hTokens⟩ := hTokens
    exact hadError_run hTokens
  have hTokens : tokenize "f(2)" = .ok [⟨.identifier, "f", .nothing, 1, 1⟩,
      ⟨.leftParen, "(", .nothing, 1, 2⟩, ⟨.integer, "2", .int 2, 1, 3⟩,
      ⟨.rightParen, ")", .nothing, 1, 4⟩, ⟨.eof, "", .nothing, 1, 5⟩] := by
    with_unfolding_all rfl
  obtain ⟨line, hLine⟩ := tokenLine_ok (tokenize_plain hTokens)
  have hFirst := (Begins.intro hFaultless hTokens hLine rfl rfl).visits
  have hStmt := hFirst.step ⟨.firstStatement⟩
  have hCall := hStmt.step ⟨.expression⟩
  obtain ⟨-, hRun⟩ := runs_on_data false ["var f => integer = 1"]
  obtain ⟨fault, hFails, hFault⟩ := ((hRun "f(2)").1 _ hCall).2.1 _ _ rfl rfl _ _
  have hAmple : 6 ≤ 1000000000000 + 7 := by decide
  exact ⟨_, _, _, _, hCall, rfl, fault, hFails, hFault hAmple⟩

end Session

end Mus
