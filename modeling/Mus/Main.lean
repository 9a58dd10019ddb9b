import Mus.Session

/-! The command line: it reads files and lines, and prints what the session
says. -/
namespace Mus.Main

/-- Prints what a session has said and forgets it. -/
def flush (session : Session) : IO Session := do
  let output ← IO.getStdout
  output.putStr session.machine.output
  output.flush
  return { session with machine := { session.machine with output := "" } }

def readFile (path : String) : IO (Except Source.FileFault (List Nat)) := do
  try
    let bytes ← IO.FS.readBinFile path
    return .ok (bytes.toList.map (·.toNat))
  catch
    | .noFileOrDirectory .. => return .error .notFound
    | .inappropriateType .. => return .error .isDirectory
    | other => return .error (.other (toString other))

/-- A line that was read, without its end. -/
def withoutEnd (line : String) : String :=
  String.ofList (line.toList.reverse.dropWhile (· == '\n')).reverse

/-- Answers the lines that are typed until the user leaves. -/
partial def converse (session : Session) : IO Unit := do
  let session ← flush session.prompt
  let input ← IO.getStdin
  let line ← input.getLine
  if line.isEmpty then return ()
  match session.answer (.line (withoutEnd line)) with
  | (session, true) => converse session
  | (session, false) => let _ ← flush session

end Mus.Main

open Mus in
/-- Runs the file that is named, or a conversation. -/
def main (arguments : List String) : IO UInt32 := do
  match arguments with
  | [] =>
      Main.converse (Command.greeting.foldl (fun session line => session.say line)
        (Session.start true))
      return 0
  | _ =>
      let bytes ← Main.readFile (arguments.headD "")
      let (session, code) := Command.mus.run arguments (fun _ => bytes) []
      let _ ← Main.flush session
      return (code.getD 0).toUInt32
