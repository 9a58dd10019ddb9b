import Mus.Proofs.Syntax.Progress
import Mus.Proofs.Token.Scanned

/-! Running a source on a session. A source that can be scanned is always parsed
to a program, and the program is run whatever syntax errors were recovered from:
they are reported nowhere. -/
namespace Mus.Session

def printed (text : String) (session : Session) : Session :=
  { session with machine := session.machine.print text }

variable (session : Session)

theorem printed_empty : session.printed "" = session := by
  unfold printed Machine.print
  rw [String.append_empty]

theorem printed_printed (first second : String) :
    (session.printed first).printed second = session.printed (first ++ second) := by
  unfold printed Machine.print
  rw [String.append_assoc]

/-- What a session tells is at most printed. -/
theorem exists_tell (text : String) : ∃ told, session.tell text = session.printed told := by
  unfold tell
  split
  · exact ⟨text ++ "\n", rfl⟩
  · exact ⟨"", session.printed_empty.symm⟩

/-- A complaint of a program is printed and noted. -/
theorem exists_fault_runtime (error : RuntimeError) :
    ∃ told, session.fault (.runtime error) =
      { session.printed told with hadRuntimeError := true } := by
  obtain ⟨told, hTell⟩ := (session.runtimeError error).exists_tell
    ("Interpreter error details: " ++ error.message)
  obtain ⟨report, hReport⟩ : ∃ report, session.runtimeError error =
      { session.printed report with hadRuntimeError := true } := ⟨_, rfl⟩
  refine ⟨report ++ told, ?_⟩
  rw [← printed_printed, Session.fault, hTell, hReport]
  rfl

/-! ## Failures of a program are no faults of a source -/

theorem hadError_tell (text : String) : (session.tell text).hadError = session.hadError := by
  unfold tell
  split <;> rfl

theorem hadError_fault (fault : Fault) : (session.fault fault).hadError = session.hadError := by
  unfold Session.fault
  split
  · rw [hadError_tell]
    rfl
  · split <;> rfl

/-- A program that fails does not make its source faulty. -/
theorem hadError_interpret (statements : List Stmt) :
    (session.interpret statements).hadError = session.hadError := by
  unfold interpret
  dsimp only
  split
  · rfl
  · rw [hadError_fault]

/-! ## Running a source that can be scanned -/

variable {session} {source : String} {tokens : List Token} {program : Program}

/-- Running tokens is printing something and interpreting the program, unless an earlier source was
faulty. -/
theorem exists_runTokens (hParse : parse tokens = .ok program) :
    ∃ told, session.runTokens tokens =
      if session.hadError then session.printed told
      else (session.printed told).interpret program.statements := by
  unfold runTokens
  dsimp only
  obtain ⟨first, hFirst⟩ := session.exists_tell "\nParsing..."
  obtain ⟨second, hSecond⟩ := (session.printed first).exists_tell "\nInterpreting..."
  rw [hFirst, hParse]
  dsimp only
  rw [hSecond, printed_printed, show (session.printed first).hadError = session.hadError from rfl]
  split
  · exact ⟨first, rfl⟩
  · exact ⟨first ++ second, rfl⟩

/-- What is run is the program, with whatever the session tells before. -/
theorem exists_run (hTokens : tokenize source = .ok tokens) (hParse : parse tokens = .ok program) :
    ∃ told, session.run source =
      if session.hadError then session.printed told
      else (session.printed told).interpret program.statements := by
  unfold run
  dsimp only
  obtain ⟨first, hFirst⟩ := session.exists_tell "\nLexical analysis..."
  obtain ⟨line, hLine⟩ := tokenLine_ok (tokenize_plain hTokens)
  rw [hFirst, hTokens]
  dsimp only
  rw [hLine]
  dsimp only
  split
  · obtain ⟨second, hSecond⟩ := exists_runTokens hParse
    rw [hSecond]
    exact ⟨first ++ (line ++ "\n") ++ second, by
      rw [← printed_printed, ← printed_printed]
      rfl⟩
  · obtain ⟨second, hSecond⟩ := exists_runTokens hParse
    rw [hSecond]
    exact ⟨first ++ second, by
      rw [← printed_printed]
      rfl⟩

/-- The tokens of a source are parsed to a program. -/
theorem parse_scanned (hTokens : tokenize source = .ok tokens) :
    ∃ program, parse tokens = .ok program :=
  parse_total (tokenize_ended hTokens) (tokenize_described hTokens)

/-- A source that can be scanned is never faulty, whatever parsing it comes to. -/
theorem hadError_run (hTokens : tokenize source = .ok tokens) :
    (session.run source).hadError = session.hadError := by
  obtain ⟨program, hParse⟩ := parse_scanned hTokens
  obtain ⟨told, hRun⟩ := exists_run hTokens hParse
  rw [hRun]
  split
  · rfl
  · rw [hadError_interpret]
    rfl

/-- The exit code 65 stands for a faulty source and nothing else. -/
theorem exitCode?_eq (session : Session) :
    session.exitCode? = some 65 ↔ session.hadError = true := by
  unfold exitCode?
  split
  · simp_all
  · split <;> simp_all

/-- A file that is read is run after what the session tells about it. -/
theorem exists_runFile {path : String} {bytes : Except Source.FileFault (List Nat)}
    (hSource : bytes.bind Source.textOfBytes = .ok source) :
    ∃ told, session.runFile path bytes =
      ((session.printed told).run source, ((session.printed told).run source).exitCode?) := by
  unfold runFile
  rw [hSource]
  dsimp only
  obtain ⟨first, hFirst⟩ := session.exists_tell ("Running file: " ++ path)
  rw [hFirst]
  obtain ⟨second, hSecond⟩ := (session.printed first).exists_tell "Source code:"
  rw [hSecond, printed_printed]
  obtain ⟨third, hThird⟩ := (session.printed (first ++ second)).exists_tell "---"
  rw [hThird, printed_printed]
  obtain ⟨fourth, hFourth⟩ := (session.printed (first ++ second ++ third)).exists_tell source
  rw [hFourth, printed_printed]
  obtain ⟨fifth, hFifth⟩ :=
    (session.printed (first ++ second ++ third ++ fourth)).exists_tell "---"
  rw [hFifth, printed_printed]
  exact ⟨_, rfl⟩

/-- Syntax errors go unnoticed. A source that can be scanned is parsed to a
program, with a placeholder for each faulty declaration, and the session runs
this program unless an earlier source was faulty. Whether a source was faulty is
not changed by that, so that the exit code of a file never tells of its syntax
errors. -/
theorem run_ignores_syntax_errors (session : Session) (hTokens : tokenize source = .ok tokens) :
    ∃ program, parse tokens = .ok program ∧
      (session.run source).hadError = session.hadError ∧
      (∃ told, session.run source =
        if session.hadError then session.printed told
        else (session.printed told).interpret program.statements) ∧
      ∀ (path : String) (bytes : Except Source.FileFault (List Nat)),
        bytes.bind Source.textOfBytes = .ok source →
          ((session.runFile path bytes).2 = some 65 ↔ session.hadError = true) := by
  obtain ⟨program, hParse⟩ := parse_scanned hTokens
  refine ⟨program, hParse, hadError_run hTokens, exists_run hTokens hParse, ?_⟩
  intro path bytes hSource
  obtain ⟨told, hFile⟩ := exists_runFile hSource
  rw [hFile, exitCode?_eq, hadError_run hTokens]
  rfl

/-- A declaration and a second one that lacks its initializer. -/
def unfinished : String := "var y => integer = 2\nvar x => integer ="

/-- The program of the unfinished source has a syntax error, and yet a session
takes the source for faultless and runs what could be read of it. -/
theorem run_ignores_unfinished :
    ∃ tokens program, tokenize unfinished = .ok tokens ∧ parse tokens = .ok program ∧
      program.errors ≠ [] ∧ ((start false).run unfinished).hadError = false ∧
      ∃ told, (start false).run unfinished =
        ((start false).printed told).interpret program.statements := by
  -- The second declaration is cut off at the end mark.
  have hTokens : tokenize unfinished = .ok [
      ⟨.varWord, "var", .nothing, 1, 1⟩, ⟨.identifier, "y", .nothing, 1, 5⟩,
      ⟨.arrow, "=>", .nothing, 1, 7⟩, ⟨.identifier, "integer", .nothing, 1, 10⟩,
      ⟨.assign, "=", .nothing, 1, 18⟩, ⟨.integer, "2", .int 2, 1, 20⟩,
      ⟨.varWord, "var", .nothing, 2, 1⟩, ⟨.identifier, "x", .nothing, 2, 5⟩,
      ⟨.arrow, "=>", .nothing, 2, 7⟩, ⟨.identifier, "integer", .nothing, 2, 10⟩,
      ⟨.assign, "=", .nothing, 2, 18⟩, ⟨.eof, "", .nothing, 2, 19⟩] := by
    with_unfolding_all rfl
  obtain ⟨program, hParse, hError, hRun, -⟩ := run_ignores_syntax_errors (start false) hTokens
  refine ⟨_, program, hTokens, hParse, ?_, hError, hRun⟩
  cases hParse
  exact List.cons_ne_nil _ _

end Mus.Session
