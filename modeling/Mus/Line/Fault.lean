import Mus.Line.Notice
import Mus.Syntax.Fault

/-! What can go wrong in carrying out a line. -/
namespace Mus.Line

/-- The kinds of types that are told apart in complaints. -/
inductive Target where
  | integer | string | boolean | array
  deriving DecidableEq, Repr

def Target.word : Target → String
  | .integer => "integer"
  | .string => "string"
  | .boolean => "boolean"
  | .array => "array"

/-- What is wrong with a line. -/
inductive Complaint where
  | invalidDeclaration (line : String)
  | invalidOutput (line : String)
  | invalidDebug (line : String)
  | unknownDebug (command : String)
  | notAssignable (typeName : String) (target : Target)
  | notConvertible (typeName : String) (target : Target)
  | unknownType (name : String)
  | notArray (name : String)
  | emptyArray
  | argumentCount (function : String) (expected given : Nat)
  | functionMissing (name : String)
  | arrayMissing (name : String)
  | variableMissing (name : String)
  deriving DecidableEq, Repr

namespace Complaint

def kind : Complaint → NoticeKind
  | .invalidDeclaration _ | .invalidOutput _ | .invalidDebug _ | .unknownDebug _ => .syntaxError
  | .notAssignable .. | .notConvertible .. | .unknownType _ | .notArray _ => .typeError
  | .emptyArray | .argumentCount .. => .runtimeError
  | .functionMissing _ | .arrayMissing _ | .variableMissing _ => .nameError

def text : Complaint → String
  | .invalidDeclaration line => "Invalid variable declaration syntax: " ++ line
  | .invalidOutput line => "Invalid output syntax: " ++ line
  | .invalidDebug line => "Invalid debug command syntax: " ++ line
  | .unknownDebug command => "Unknown debug command: " ++ command
  | .notAssignable typeName target =>
      "Cannot assign " ++ typeName ++ " to " ++ target.word ++ " variable"
  | .notConvertible typeName target => "Cannot convert " ++ typeName ++ " to " ++ target.word
  | .unknownType name => "Unknown type: " ++ name
  | .notArray name => "'" ++ name ++ "' is not an array"
  | .emptyArray => "Cannot pop from empty array"
  | .argumentCount function expected given =>
      "Function '" ++ function ++ "' expects " ++ toString expected ++ " arguments but got " ++
        toString given
  | .functionMissing name => "Function '" ++ name ++ "' not defined"
  | .arrayMissing name => "Array '" ++ name ++ "' not defined"
  | .variableMissing name => "Variable '" ++ name ++ "' not defined"

end Complaint

/-- How carrying out a line fails: with a complaint about the line, or by a fault
of an operation on a value, which knows no line. -/
inductive Fault where
  | complaint (complaint : Complaint) (line : Int)
  | notNumeric (typeName : String)
  | infinite
  | unsupported (typeName operation : String)
  | text (fault : TextFault)
  | tooDeep

def Fault.message : Fault → String
  | .complaint what line => (Notice.make what.kind what.text (some line)).text
  | .notNumeric typeName =>
      "int() argument must be a string, a bytes-like object or a real number, not '" ++
        typeName ++ "'"
  | .infinite => "cannot convert float infinity to integer"
  | .unsupported typeName operation =>
      "'" ++ typeName ++ "' object has no attribute '" ++ operation ++ "'"
  | .text fault => fault.message
  | .tooDeep => TextFault.tooDeep.message

end Mus.Line
