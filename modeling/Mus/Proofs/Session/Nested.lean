import Mus.Proofs.Session.DataOnly

/-! Nested statements and the global scope. Of all that a source is parsed to, only a
declaration that the global scope itself executes adds to that scope. Blocks,
branches, loops, returns and expressions leave its variables, functions and classes
as they are, whatever is declared inside them. The condition of a loop is evaluated
from the global variables, so that it never becomes false: a loop that begins does
not end, unless by a fault or a return. -/
namespace Mus

/-! ## Statements within statements -/

/-- The first statement stands in the second one, at any depth. -/
inductive Stmt.Within (inner : Stmt) : Stmt → Prop where
  | self : Within inner inner
  | block {body : List Stmt} {stmt : Stmt} (hMem : stmt ∈ body) (h : Within inner stmt) :
      Within inner (.block body)
  | thenBranch {condition : Expr} {thenBranch : Stmt} {elseBranch : Option Stmt}
      (h : Within inner thenBranch) : Within inner (.branch condition thenBranch elseBranch)
  | elseBranch {condition : Expr} {thenBranch other : Stmt} (h : Within inner other) :
      Within inner (.branch condition thenBranch (some other))
  | loop {condition : Expr} {body : Stmt} (h : Within inner body) :
      Within inner (.loop condition body)
  | function {decl : FunDecl} {stmt : Stmt} (hMem : stmt ∈ decl.body) (h : Within inner stmt) :
      Within inner (.funDecl decl)
  | method {name : String} {superclass : Option String} {fields : List VarDecl}
      {methods : List FunDecl} {token : Token} {decl : FunDecl} {stmt : Stmt}
      (hDecl : decl ∈ methods) (hMem : stmt ∈ decl.body) (h : Within inner stmt) :
      Within inner (.classDecl name superclass fields methods token)

theorem FunDecl.Sourced.body {decl : FunDecl} (h : decl.Sourced) : Stmt.AllSourced decl.body := by
  cases decl
  exact h

/-- What stands in a statement of a source comes from the source, by induction on where it
stands. -/
theorem Stmt.Within.sourced {inner outer : Stmt} (h : inner.Within outer)
    (hOuter : outer.Sourced) : inner.Sourced := by
  induction h with
  | self => exact hOuter
  | block hMem _ ih => exact ih (Stmt.AllSourced.of_mem hOuter _ hMem)
  | thenBranch _ ih => exact ih hOuter.2.1.1
  | elseBranch _ ih => exact ih hOuter.2.2.1
  | loop _ ih => exact ih hOuter.2.1
  | function hMem _ ih => exact ih ((FunDecl.Sourced.body hOuter).of_mem _ hMem)
  | method hDecl hMem _ ih => exact ih ((hOuter.2.of_mem _ hDecl).body.of_mem _ hMem)

/-- The statement stands, at some depth, in the program that a source is parsed to. -/
inductive Stmt.ParsedFrom (source : String) (stmt : Stmt) : Prop where
  | intro {tokens : List Token} {program : Program} {outer : Stmt}
      (hTokens : tokenize source = .ok tokens) (hParse : parse tokens = .ok program)
      (hMem : outer ∈ program.statements) (hWithin : stmt.Within outer) : ParsedFrom source stmt

/-- What a source is parsed to comes from it, at any depth. -/
theorem Stmt.ParsedFrom.sourced {source : String} {stmt : Stmt} (h : stmt.ParsedFrom source) :
    stmt.Sourced := by
  obtain ⟨hTokens, hParse, hMem, hWithin⟩ := h
  have hProgram := parse_sourced (tokenize_sourced hTokens) hParse
  exact hWithin.sourced (hProgram.of_mem _ hMem)

/-! ## The global scope -/

/-- The global scope has the same variables, functions and classes in both machines,
and what they refer to is the same: functions, classes and lists may have been
added, and there are the same objects. -/
structure Machine.SameGlobals (before after : Machine) : Prop where
  globals : after.globals = before.globals
  scope : after.store.scope after.globals = before.store.scope before.globals
  functions : before.store.functions.toList <+: after.store.functions.toList
  classes : before.store.classes.toList <+: after.store.classes.toList
  objects : after.store.objects = before.store.objects
  lists : before.store.cells.toList <+: after.store.cells.toList

namespace Machine.SameGlobals

variable {before middle after : Machine}

theorem refl (machine : Machine) : machine.SameGlobals machine :=
  ⟨rfl, rfl, List.prefix_refl _, List.prefix_refl _, rfl, List.prefix_refl _⟩

theorem trans (h₁ : before.SameGlobals middle) (h₂ : middle.SameGlobals after) :
    before.SameGlobals after :=
  ⟨h₂.globals.trans h₁.globals, h₂.scope.trans h₁.scope, h₁.functions.trans h₂.functions,
    h₁.classes.trans h₂.classes, h₂.objects.trans h₁.objects, h₁.lists.trans h₂.lists⟩

/-- Lists that are added change nothing in the global scope. -/
theorem withLists (added : Array (List Value)) (machine : Machine) :
    machine.SameGlobals (machine.withLists added) := by
  refine ⟨rfl, rfl, List.prefix_refl _, List.prefix_refl _, rfl, ?_⟩
  simp [Machine.withLists, Store.withLists]

end Machine.SameGlobals

/-- A frame in which things are settled leaves the global scope as it was. -/
theorem Machine.Frame.sameGlobals {before after : Machine} (h : before.Frame True after)
    (hBefore : before.Sourced) : before.SameGlobals after := by
  refine ⟨h.standpoint.globals, ?_, h.store.functions, h.store.classes, h.store.objects, ?_⟩
  · rw [h.standpoint.globals, hBefore.globals]
    exact h.store.scope_eq hBefore.store.global (Or.inl trivial)
  · exact h.store.cells ▸ List.prefix_refl _

/-! ## Loops -/

/-- The machine is still alike after steps that do not change the global scope. -/
theorem Machine.Alike.frame {start machine after : Machine} {settled : Prop}
    (h : start.Alike machine) (hFrame : machine.Frame settled after)
    (hSettled : settled ∨ 0 ≠ machine.current) : start.Alike after := by
  refine ⟨h.sourced, hFrame.sourced h.sourced', ?_, h.cells.trans hFrame.store.cells.symm⟩
  rw [hFrame.store.scope_eq h.sourced'.store.global hSettled]
  exact h.bindings

/-- A block enters a scope that is not the global one. -/
theorem Machine.Alike.entered {start machine : Machine} (h : start.Alike machine) :
    start.Alike
      { machine with
        store := (machine.store.addScope { parent := some machine.current }).2
        current := machine.store.scopes.size } := by
  have hGrows := machine.store.grows_addScope (fun _ => True) (some machine.current)
  refine ⟨h.sourced, h.sourced'.addScope rfl, h.bindings.trans ?_, h.cells⟩
  rw [hGrows.scope_eq h.sourced'.store.global trivial]

/-- The condition of a loop, or of a counting loop: that is a block, which first declares
the iterator. -/
def Stmt.repeated? : Stmt → Option Expr
  | .loop condition _ => some condition
  | .block [.varDecl _, .loop condition _] => some condition
  | _ => none

namespace Run

/-- With some bounds the expression is evaluated to something true. -/
def Holds (condition : Expr) (machine : Machine) : Prop :=
  ∃ fuel room value after, evaluate fuel room condition machine = .ok value after ∧
    isTruthy value = true

variable {condition : Expr} {body : Stmt} {start machine : Machine}

theorem holds_of_check (fuel room : Nat)
    (h : (match evaluate fuel room condition machine with
      | .ok value _ => isTruthy value
      | .error _ _ => false) = true) : Holds condition machine := by
  cases hRun : evaluate fuel room condition machine with
  | ok value after =>
      rw [hRun] at h
      exact ⟨fuel, room, value, after, hRun, h⟩
  | error fault after =>
      rw [hRun] at h
      cases h

/-- What holds is true with all bounds that are enough, and on alike machines. -/
theorem Holds.evaluate (h : Holds condition start) (hCondition : condition.Runnable)
    (hAlike : start.Alike machine) (fuel room : Nat) :
    (∃ after, evaluate fuel room condition machine = .error .outOfFuel after) ∨
      ∃ value, evaluate fuel room condition machine = .ok value machine ∧
        isTruthy value = true := by
  obtain ⟨enough, room', value, after, hRun, hTrue⟩ := h
  -- The outcome is carried over by way of a bound that is ample for the condition and
  -- at least the one with which the condition is known to hold.
  obtain ⟨ample, hSize, hEnough⟩ : ∃ ample, condition.size ≤ ample ∧ enough ≤ ample :=
    ⟨max condition.size enough, Nat.le_max_left _ _, Nat.le_max_right _ _⟩
  have hAmple : Run.evaluate ample room condition start = .ok value after := by
    rcases views_sourced.approximates_evaluate hAlike.sourced.alike room' room hCondition
      (Or.inr hEnough) with ⟨_, hWant⟩ | hSame
    · rw [hRun] at hWant
      cases hWant
    · rw [← hSame, hRun]
  have hMachine : Run.evaluate ample room condition machine = .ok value machine := by
    obtain ⟨outcome, -, hFirst, hSecond⟩ :=
      views_sourced.looks_evaluate ample room hCondition start machine hAlike
    rw [hAmple] at hFirst
    cases outcome with
    | ok found =>
        cases hFirst
        exact hSecond
    | error fault => cases hFirst
  rcases views_sourced.approximates_evaluate hAlike.sourced'.alike room room hCondition
    (Or.inl hSize) with hWant | hSame
  · exact Or.inl hWant
  · exact Or.inr ⟨value, hSame.trans hMachine, hTrue⟩

/-- A condition that holds is found to hold at every turn. -/
theorem repeatWhile_ne_ok (h : Holds condition start) (hCondition : condition.Runnable)
    (hBody : body.Sourced) (hNested : body.isDeclaration = false)
    (hAlike : start.Alike machine) (fuel room : Nat) (after : Machine) :
    repeatWhile fuel room condition body machine ≠ .ok () after := by
  induction fuel generalizing machine with
  | zero =>
      unfold repeatWhile
      nofun
  | succ fuel ih =>
      unfold repeatWhile
      rcases h.evaluate hCondition hAlike fuel room with ⟨stopped, hWant⟩ | ⟨value, hRun, hTrue⟩
      · rw [bind_error hWant]
        nofun
      · rw [bind_ok hRun, if_pos hTrue]
        cases hTurn : execute fuel room body machine with
        | error fault stopped =>
            rw [bind_error hTurn]
            nofun
        | ok _ turned =>
            rw [bind_ok hTurn]
            have hFrame := (frames_execute fuel room hBody).of_ok hAlike.sourced' hTurn
            exact ih (hAlike.frame hFrame (Or.inl hNested))

/-- A loop whose condition holds at the start never ends without a fault: its body changes nothing
that the condition could depend on. -/
theorem execute_loop_ne_ok (h : Holds condition start)
    (hLoop : (Stmt.loop condition body).Sourced) (hAlike : start.Alike machine)
    (fuel room : Nat) (after : Machine) :
    execute fuel room (.loop condition body) machine ≠ .ok () after := by
  obtain ⟨hCondition, hBody, hNested⟩ := hLoop
  unfold execute
  cases fuel with
  | zero => nofun
  | succ fuel => exact repeatWhile_ne_ok h hCondition hBody hNested hAlike fuel room after

/-- Statements do not complete if those behind the first one do not. -/
theorem executeAll_cons_ne_ok {room : Nat} {stmt : Stmt} {rest : List Stmt}
    (h : ∀ fuel next, execute fuel room stmt machine = .ok () next →
      ∀ after, executeAll fuel room rest next ≠ .ok () after) (fuel : Nat) (after : Machine) :
    executeAll fuel room (stmt :: rest) machine ≠ .ok () after := by
  cases fuel with
  | zero =>
      rw [executeAll]
      intro hDone
      cases hDone
  | succ fuel =>
      rw [executeAll]
      cases hFirst : execute fuel room stmt machine with
      | error fault stopped =>
          rw [bind_error hFirst]
          intro hDone
          cases hDone
      | ok _ next =>
          rw [bind_ok hFirst]
          exact h fuel next hFirst after

theorem inScope_ne_ok {scope : Nat} {steps : Run Unit}
    (h : ∀ after, steps { machine with current := scope } ≠ .ok () after) (after : Machine) :
    inScope scope steps machine ≠ .ok () after := by
  unfold inScope
  cases hRun : steps { machine with current := scope } with
  | error fault stopped => nofun
  | ok _ done => exact absurd hRun (h done)

/-- The iterator of a counting loop is declared in the scope of a block, where the
condition is not looked for. -/
theorem execute_counting_ne_ok {decl : VarDecl} (h : Holds condition machine)
    (hBlock : (Stmt.block [.varDecl decl, .loop condition body]).Sourced)
    (hMachine : machine.Sourced) (fuel room : Nat) (after : Machine) :
    execute fuel room (.block [.varDecl decl, .loop condition body]) machine ≠ .ok () after := by
  obtain ⟨hDecl, hLoop, -⟩ := hBlock
  have hEntered := hMachine.alike.entered
  unfold execute
  cases fuel with
  | zero => nofun
  | succ fuel =>
      refine inScope_ne_ok (executeAll_cons_ne_ok (fun fuel next hFirst => ?_) fuel) after
      have hFrame := (frames_execute fuel room hDecl).of_ok hEntered.sourced' hFirst
      have hNext := hEntered.frame hFrame (Or.inr (Nat.ne_of_lt hMachine.store.global))
      exact executeAll_cons_ne_ok (fun fuel _ hSecond =>
        absurd hSecond (execute_loop_ne_ok h hLoop hNext fuel room _)) fuel

/-- A loop whose condition holds does not complete. -/
theorem execute_repeated_ne_ok {stmt : Stmt} (hRepeated : stmt.repeated? = some condition)
    (h : Holds condition machine) (hStmt : stmt.Sourced) (hMachine : machine.Sourced)
    (fuel room : Nat) (after : Machine) : execute fuel room stmt machine ≠ .ok () after := by
  unfold Stmt.repeated? at hRepeated
  split at hRepeated
  · cases hRepeated
    exact execute_loop_ne_ok h hStmt hMachine.alike fuel room after
  · cases hRepeated
    exact execute_counting_ne_ok h hStmt hMachine fuel room after
  · cases hRepeated

end Run

namespace Session

/-- What a session can be about to execute, with the machine before the statement is
loaded and the one on which it is executed: any statement that a source is parsed to,
at any depth, or one that is reached while the session runs a source. -/
inductive Executes (session : Session) : Machine → Stmt → Machine → Prop where
  | ofParsed {source : String} {stmt loaded : Stmt} {store : Store}
      (hParsed : stmt.ParsedFrom source)
      (hLoad : stmt.load session.machine.store = (loaded, store)) :
      Executes session session.machine loaded { session.machine with store := store }
  | ofVisited {source : String} {stmt : Stmt} {moment : Moment}
      (hVisits : session.Visits source moment) (hTask : moment.task = .execute stmt) :
      Executes session moment.machine stmt moment.machine

/-- Whatever a session can be about to execute comes from a source, on a machine of sources. -/
theorem Executes.sourced {session : Session} {debug : Bool} (hSession : session.Tame debug)
    {before machine : Machine} {stmt : Stmt} (h : session.Executes before stmt machine) :
    stmt.Sourced ∧ machine.Sourced ∧ before.SameGlobals machine := by
  cases h with
  | ofParsed hParsed hLoad =>
      obtain ⟨hLoaded, added, hAdded, hStore⟩ :=
        Stmt.loads_load hParsed.sourced session.machine.store
      rw [hLoad] at hLoaded hStore
      subst hStore
      exact ⟨hLoaded.1, hSession.sourced.withLists hAdded, .withLists added _⟩
  | ofVisited hVisits hTask =>
      have hMoment := hVisits.sourced hSession
      have hStmt := hMoment.task
      rw [hTask] at hStmt
      exact ⟨hStmt, hMoment.machine, .refl _⟩

/-- Let a session have run any sources. A statement that it can be about to execute and
that is no declaration leaves the global variables, functions and classes exactly as
they were, however it ends and within whatever bounds it is executed. If it is a loop
or a counting loop whose condition holds, it does not complete. -/
theorem nested_statements_keep_globals (debug : Bool) (sources : List String)
    {before machine : Machine} {stmt : Stmt}
    (h : (afterRuns debug sources).Executes before stmt machine)
    (hNested : stmt.isDeclaration = false) :
    (∀ fuel room, before.SameGlobals (Run.machineAfter (Run.execute fuel room stmt machine))) ∧
      ∀ condition, stmt.repeated? = some condition → Run.Holds condition machine →
        ∀ fuel room after, Run.execute fuel room stmt machine ≠ .ok () after := by
  obtain ⟨hStmt, hMachine, hBefore⟩ := h.sourced (tame_afterRuns debug sources)
  refine ⟨fun fuel room => ?_, fun condition hRepeated hHolds => ?_⟩
  · have hFrame := Run.frames_execute fuel room hStmt machine hMachine
    exact hBefore.trans ((hFrame.mono fun _ => hNested).sameGlobals hMachine)
  · exact Run.execute_repeated_ne_ok hRepeated hHolds hStmt hMachine

/-- The tokens of `for (i = 0; n; i) { var n => t }`. -/
def endlessTokens : List Token :=
  [⟨.forWord, "for", .nothing, 1, 1⟩, ⟨.leftParen, "(", .nothing, 1, 5⟩,
    ⟨.identifier, "i", .nothing, 1, 6⟩, ⟨.assign, "=", .nothing, 1, 8⟩,
    ⟨.integer, "0", .int 0, 1, 10⟩, ⟨.semicolon, ";", .nothing, 1, 11⟩,
    ⟨.identifier, "n", .nothing, 1, 13⟩, ⟨.semicolon, ";", .nothing, 1, 14⟩,
    ⟨.identifier, "i", .nothing, 1, 16⟩, ⟨.rightParen, ")", .nothing, 1, 17⟩,
    ⟨.leftBrace, "\x7b", .nothing, 1, 19⟩, ⟨.varWord, "var", .nothing, 1, 21⟩,
    ⟨.identifier, "n", .nothing, 1, 25⟩, ⟨.arrow, "=>", .nothing, 1, 27⟩,
    ⟨.identifier, "t", .nothing, 1, 30⟩, ⟨.rightBrace, "\x7d", .nothing, 1, 32⟩,
    ⟨.eof, "", .nothing, 1, 33⟩]

def endlessLoop : Stmt :=
  .block [
    .varDecl ⟨"i", "integer", some (.literal (.int 0) ⟨.integer, "0", .int 0, 1, 10⟩),
      ⟨.identifier, "i", .nothing, 0, 0⟩⟩,
    .loop (.variable "n" ⟨.identifier, "n", .nothing, 1, 13⟩) (.block [
      .varDecl ⟨"n", "t", none, ⟨.identifier, "n", .nothing, 1, 25⟩⟩,
      .expression (.variable "i" ⟨.identifier, "i", .nothing, 1, 16⟩)])]

/-- The sample is parsed to the counting loop. -/
theorem parse_endlessTokens : parse endlessTokens = .ok ⟨[endlessLoop], []⟩ := by
  with_unfolding_all rfl

/-- The body declares the variable of the condition again, without a value, but in its
own scope: the global one still holds 1, and the loop goes on. -/
theorem nested_statements_keep_globals_endlessLoop :
    endlessLoop.ParsedFrom "for (i = 0; n; i) \x7b var n => t \x7d" ∧
      Run.Holds (.variable "n" ⟨.identifier, "n", .nothing, 1, 13⟩)
        (afterRuns false ["var n => integer = 1"]).machine ∧
      (∀ fuel room, (afterRuns false ["var n => integer = 1"]).machine.SameGlobals
        (Run.machineAfter (Run.execute fuel room endlessLoop
          (afterRuns false ["var n => integer = 1"]).machine))) ∧
      ∀ fuel room after, Run.execute fuel room endlessLoop
        (afterRuns false ["var n => integer = 1"]).machine ≠ .ok () after := by
  have hTokens : tokenize "for (i = 0; n; i) \x7b var n => t \x7d" = .ok endlessTokens := by
    with_unfolding_all rfl
  have hParsed : endlessLoop.ParsedFrom "for (i = 0; n; i) \x7b var n => t \x7d" :=
    .intro hTokens parse_endlessTokens (List.mem_singleton.mpr rfl) .self
  have hHolds : Run.Holds (.variable "n" ⟨.identifier, "n", .nothing, 1, 13⟩)
      (afterRuns false ["var n => integer = 1"]).machine :=
    Run.holds_of_check 1 0 (by decide +kernel)
  obtain ⟨hKeeps, hEndless⟩ := nested_statements_keep_globals false ["var n => integer = 1"]
    (.ofParsed hParsed rfl) rfl
  exact ⟨hParsed, hHolds, hKeeps, hEndless _ rfl hHolds⟩

end Session

end Mus
