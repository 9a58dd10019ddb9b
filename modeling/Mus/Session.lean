import Mus.Machine.Interpret
import Mus.Source.Directory
import Mus.Syntax.Parser.Statement
import Mus.Token.Scanner

/-! Sessions: running sources one after another on one machine, from a text, a
file or line by line, with the reports that go to the user. -/
namespace Mus

open Mus.Text

/-- A session: its machine, whether it tells what it does, and whether a source
has been faulty or has failed. -/
structure Session where
  machine : Machine
  debug : Bool
  hadError : Bool
  hadRuntimeError : Bool

/-- What comes from the user: a line, or a failure to read one. -/
inductive Input where
  | line (text : String)
  | interrupt
  | failure (text : String)

namespace Session

def start (debug : Bool) : Session := ⟨.initial, debug, false, false⟩

def say (text : String) (session : Session) : Session :=
  { session with machine := session.machine.print (text ++ "\n") }

/-- Prints a line if the session tells what it does. -/
def tell (text : String) (session : Session) : Session :=
  if session.debug then session.say text else session

def report (line column : Int) (subject message : String) (session : Session) : Session :=
  session.say ("[line " ++ toString line ++ ", column " ++ toString column ++ "] Error" ++
    (if subject = "" then "" else " " ++ subject) ++ ": " ++ message)

def error (line column : Int) (message : String) (session : Session) : Session :=
  { session.report line column "" message with hadError := true }

def runtimeError (error : RuntimeError) (session : Session) : Session :=
  { session.report error.token.line error.token.column "Runtime Error" error.message with
    hadRuntimeError := true }

def unexpected (message : String) (session : Session) : Session :=
  session.say ("Unexpected error: " ++ message)

def lexFault (fault : LexFault) (session : Session) : Session :=
  match fault with
  | .unexpected _ line column | .unterminated line column =>
      (session.error line column fault.message).tell ("Lexer error details: " ++ fault.message)
  | _ => session.unexpected fault.message

def fault (fault : Fault) (session : Session) : Session :=
  match fault with
  | .runtime error =>
      (session.runtimeError error).tell ("Interpreter error details: " ++ error.message)
  | other =>
      match other.message session.machine.store with
      | .ok text => session.unexpected text
      | .error textFault => session.unexpected textFault.message

def tokenLine (tokens : List Token) : Except TextFault String := do
  return "Tokens: " ++ bracketed ((← tokens.mapM Token.label).map quoted)

def interpret (statements : List Stmt) (session : Session) : Session :=
  let steps : Run Unit := do
    let loaded ← Run.load (Stmt.loadAll statements)
    Run.interpret loaded
  match steps session.machine with
  | .ok _ machine => { session with machine := machine }
  | .error failure machine => { session with machine := machine }.fault failure

/-- Parses tokens and runs the program, unless an earlier source was faulty. -/
def runTokens (tokens : List Token) (session : Session) : Session :=
  let session := session.tell "\nParsing..."
  match parse tokens with
  | .error fault => session.unexpected fault.message
  | .ok program =>
      if session.hadError then session
      else (session.tell "\nInterpreting...").interpret program.statements

def run (source : String) (session : Session) : Session :=
  let session := session.tell "\nLexical analysis..."
  match tokenize source with
  | .error failure => session.lexFault failure.fault
  | .ok tokens =>
      if session.debug then
        match tokenLine tokens with
        | .ok line => (session.say line).runTokens tokens
        | .error fault => session.unexpected fault.message
      else session.runTokens tokens

/-- The exit code for a file whose source was faulty or failed. -/
def exitCode? (session : Session) : Option Nat :=
  if session.hadError then some 65
  else if session.hadRuntimeError then some 70
  else none

/-- Runs a file, given what reading its bytes yields, with the exit code if the
program does not end well. -/
def runFile (path : String) (bytes : Except Source.FileFault (List Nat)) (session : Session) :
    Session × Option Nat :=
  match bytes.bind Source.textOfBytes with
  | .error .notFound => (session.say ("Error: Could not find file '" ++ path ++ "'"), some 66)
  | .error fault => (session.say ("Error: " ++ fault.message path), some 1)
  | .ok source =>
      let session := ((((session.tell ("Running file: " ++ path)).tell "Source code:").tell
        "---").tell source).tell "---"
      let session := session.run source
      (session, session.exitCode?)

def prompt (session : Session) : Session :=
  { session with machine := session.machine.print "mus> " }

def isExit (line : String) : Bool :=
  lower line == "exit" || lower line == "quit"

/-- What a session does with an input, and whether it goes on. -/
def answer (input : Input) (session : Session) : Session × Bool :=
  match input with
  | .line text =>
      if text = "" then (session, true)
      else if isExit text then (session, false)
      else ({ session.run text with hadError := false }, true)
  | .interrupt => (session.say "\nKeyboardInterrupt", true)
  | .failure text => (session.say ("Error: " ++ text), true)

/-- Answers inputs until one asks to leave or the last has been answered. -/
def answerAll : List Input → Session → Session
  | [], session => session.prompt
  | input :: rest, session =>
      match session.prompt.answer input with
      | (session, true) => session.answerAll rest
      | (session, false) => session

end Session

/-- A program of the command line, by its usage line. -/
structure Command where
  usage : String

namespace Command

def mus : Command := ⟨"Usage: mus [script]"⟩

/-- The script that runs programs. -/
def script : Command := ⟨"Usage: python run_mus.py [script]"⟩

def greeting : List String :=
  ["Mus Programming Language v0.1.0", "Type 'exit' or 'quit' to exit"]

/-- Runs a command: with one argument a file, without arguments a session. -/
def run (command : Command) (arguments : List String)
    (read : String → Except Source.FileFault (List Nat)) (inputs : List Input) :
    Session × Option Nat :=
  let session := Session.start true
  match arguments with
  | [] => ((greeting.foldl (fun session line => session.say line) session).answerAll inputs, none)
  | [path] => session.runFile path (read path)
  | _ => (session.say command.usage, some 64)

end Command

end Mus
