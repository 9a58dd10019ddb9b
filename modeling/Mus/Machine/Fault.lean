import Mus.Number.Basic
import Mus.Store.Text
import Mus.Syntax.Fault

/-! What can go wrong in running a program. -/
namespace Mus

/-- What is wrong with the program at a token. -/
inductive Complaint where
  | superUnavailable
  | superclassMissing
  | methodMissing (name : String)
  | superclassUnknown (name : String)
  | operandsNotNumbersOrStrings
  | operandsNotNumbers
  | operandNotNumber
  | divisionByZero
  | moduloByZero
  | unknownOperator (kind : TokenKind)
  | notCallable
  | unknownArrayMethod (name : String)
  | invalidArrayIndex (name : String)
  | noProperties
  | noFields
  | notIterable
  | unknownExpression (node : String)
  | unknownStatement (node : String)
  | escaped (text : String)
  deriving DecidableEq, Repr

def Complaint.text : Complaint → String
  | .superUnavailable => "'super' reference not available"
  | .superclassMissing => "Superclass not found"
  | .methodMissing name => "Method '" ++ name ++ "' not found in superclass"
  | .superclassUnknown name => "Superclass '" ++ name ++ "' not found"
  | .operandsNotNumbersOrStrings => "Operands must be numbers or strings"
  | .operandsNotNumbers => "Operands must be numbers"
  | .operandNotNumber => "Operand must be a number"
  | .divisionByZero => "Division by zero"
  | .moduloByZero => "Modulo by zero"
  | .unknownOperator kind => "Unknown operator: TokenType." ++ kind.name
  | .notCallable => "Can only call functions and classes"
  | .unknownArrayMethod name => "Unknown array method: " ++ name
  | .invalidArrayIndex name => "Invalid array index: " ++ name
  | .noProperties => "Only instances have properties"
  | .noFields => "Only instances have fields"
  | .notIterable => "Can only iterate over arrays"
  | .unknownExpression node => "Unknown expression type: " ++ qualifiedNode node
  | .unknownStatement node => "Unknown statement type: " ++ qualifiedNode node
  | .escaped text => text

structure RuntimeError where
  complaint : Complaint
  token : Token

def RuntimeError.message (error : RuntimeError) : String :=
  error.complaint.text ++ placeText error.token.line error.token.column

/-- How running a program ends early: with a complaint, by a return statement,
or by a fault of one of the operations, which knows no token. -/
inductive Fault where
  | runtime (error : RuntimeError)
  | returned (value : Value)
  | fieldMissing (name className : String)
  | variableMissing (name : String)
  | scopeDistance (name : String)
  | argumentCount (function : String)
  | argumentNotArray (function : String)
  | emptyCall
  | unhashable (typeName : String)
  | indexType (type : String)
  | indexBounds (index : String)
  | operandTooLarge
  | quotientTooLarge
  | text (fault : TextFault)
  | tooDeep
  | outOfFuel

def Fault.ofNumber : Number.Fault → Fault
  | .operandTooLarge => .operandTooLarge
  | .quotientTooLarge => .quotientTooLarge

/-- The text of a fault. For a return statement it is that of the value. -/
def Fault.message (store : Store) : Fault → Except TextFault String
  | .runtime error => .ok error.message
  | .returned value => store.shown value
  | .fieldMissing name className =>
      .ok ("Field '" ++ name ++ "' not found in class '" ++ className ++ "'")
  | .variableMissing name => .ok ("Variable '" ++ name ++ "' not defined")
  | .scopeDistance name => .ok ("Invalid scope distance for variable '" ++ name ++ "'")
  | .argumentCount function =>
      .ok ("Function '" ++ function ++ "' expects exactly one argument")
  | .argumentNotArray function =>
      .ok ("Function '" ++ function ++ "' expects an array argument")
  | .emptyCall => .ok "'NoneType' object is not callable"
  | .unhashable typeName => .ok ("unhashable type: '" ++ typeName ++ "'")
  | .indexType type => .ok ("Array index must be an integer, got " ++ type)
  | .indexBounds index => .ok ("Array index " ++ index ++ " out of bounds")
  | .operandTooLarge => .ok "int too large to convert to float"
  | .quotientTooLarge => .ok "integer division result too large for a float"
  | .text fault => .ok fault.message
  | .tooDeep => .ok TextFault.tooDeep.message
  | .outOfFuel => .ok "the bound on the number of steps is used up"

end Mus
