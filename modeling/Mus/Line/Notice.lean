import Mus.Line.Signature

/-! Notices: errors as a terminal shows them, with a coloured heading and the
number of the line. -/
namespace Mus.Line

def red : String := "\x1b[31m"

def bright : String := "\x1b[1m"

/-- The terminal code that ends all colours. -/
def plain : String := "\x1b[0m"

/-- A message after a coloured heading. The line is left out where it is unknown
or zero. -/
def headed (heading message : String) (line : Option Int) : String :=
  red ++ bright ++ heading ++ ":" ++ plain ++ " " ++ message ++
    match line with
    | some n => if n = 0 then "" else " (line " ++ toString n ++ ")"
    | none => ""

inductive NoticeKind where
  | bare | syntaxError | typeError | runtimeError | nameError | interrupt
  deriving DecidableEq, Repr

namespace NoticeKind

/-- The heading of a kind. A bare notice has none. -/
def heading? : NoticeKind → Option String
  | .bare => none
  | .syntaxError => some "Syntax Error"
  | .typeError => some "Type Error"
  | .runtimeError => some "Runtime Error"
  | .nameError => some "Name Error"
  | .interrupt => some "Interrupt Error"

def name : NoticeKind → String
  | .bare => "MusError"
  | .syntaxError => "ParserError"
  | .typeError => "TypeError"
  | .runtimeError => "RuntimeError"
  | .nameError => "NameError"
  | .interrupt => "KeyboardInterruptError"

/-- What a notice of a kind is made from. -/
def signature (kind : NoticeKind) : Signature :=
  match kind with
  | .bare => ⟨kind.name ++ ".__init__", ["message", "line_number"], 0, true⟩
  | .interrupt => ⟨kind.name ++ ".__init__", [], 0, true⟩
  | _ => ⟨kind.name ++ ".__init__", ["message"], 1, true⟩

end NoticeKind

/-- An error for the terminal: its message, already with its heading, and its
line. -/
structure Notice where
  message : String
  line : Option Int
  deriving DecidableEq, Repr

namespace Notice

def make (kind : NoticeKind) (message : String) (line : Option Int) : Notice :=
  match kind.heading? with
  | some heading => ⟨headed heading message line, line⟩
  | none => ⟨message, line⟩

def text (notice : Notice) : String :=
  "Mus Error: " ++ notice.message ++ " (line " ++
    (match notice.line with | some n => toString n | none => "None") ++ ")"

inductive Argument where
  | text (words : String)
  | number (n : Int)
  | nothing
  deriving DecidableEq, Repr

def Argument.shown : Argument → String
  | .text words => words
  | .number n => toString n
  | .nothing => "None"

/-- The line that an argument says. -/
def Argument.line? : Argument → Option Int
  | .number n => some n
  | _ => none

/-- The message and the line that arguments give. -/
def parts (arguments : List Argument) : String × Option Int :=
  (((arguments[0]?).map Argument.shown).getD "", (arguments[1]?).bind Argument.line?)

/-- A notice of a kind from any number of arguments. An interrupt takes none,
and can then not be made, because it has no line. -/
def ofArguments (kind : NoticeKind) (arguments : List Argument) : Except ArityFault Notice := do
  kind.signature.check arguments.length
  match kind with
  | .interrupt => throw (.missing NoticeKind.bare.signature ["line_number"])
  | _ =>
      let (message, line) := parts arguments
      return make kind message line

/-- What the headed text of a message is made from. -/
def headedSignature : Signature := ⟨"format_error", ["message"], 2, false⟩

/-- The headed text of a message from any number of arguments: message, line and
heading. -/
def headedOfArguments (arguments : List Argument) : Except ArityFault String := do
  headedSignature.check arguments.length
  let (message, line) := parts arguments
  return headed (((arguments[2]?).map Argument.shown).getD "Error") message line

end Notice

end Mus.Line
