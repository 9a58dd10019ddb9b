import Mus.Line.Fault
import Mus.Number.Integer
import Mus.Number.Real
import Mus.Store.Text

/-! Types of the line dialect: which values a type accepts, what a variable of a
type may hold and how a value is made to fit an array. -/
namespace Mus.Line

def isArrayType (type : String) : Bool := "array<".toList.isPrefixOf type.toList

def elementType (type : String) : String := String.ofList (type.toList.drop 6).dropLast

/-- Is a value a whole number? Truth values are. -/
def isInteger : Value → Bool
  | .int _ | .bool _ => true
  | _ => false

def isText : Value → Bool
  | .str _ => true
  | _ => false

def isBoolean : Value → Bool
  | .bool _ => true
  | _ => false

def isList : Value → Bool
  | .list _ => true
  | _ => false

/-- Does a type accept a value as it is? -/
def isCompatible (value : Value) (type : String) : Bool :=
  if type = "integer" then isInteger value
  else if type = "string" then isText value
  else if type = "boolean" then isBoolean value
  else if isArrayType type then isList value
  else type = "any"

/-- The kind of type that keeps a value out of a variable. Only whole numbers,
texts and arrays are watched. -/
def assignmentBar? (type : String) (value : Value) : Option Target :=
  if type = "integer" then if isInteger value then none else some .integer
  else if type = "string" then if isText value then none else some .string
  else if isArrayType type then if isList value then none else some .array
  else none

/-- The whole number that a value stands for: a number without its fraction, or
what a text says. -/
def toInteger (value : Value) (line : Int) : Except Fault Value :=
  match value with
  | .int n => .ok (.int n)
  | .bool b => .ok (.bool b)
  | .str text =>
      match Integer.read text.toList with
      | .ok n => .ok (.int n)
      | .error _ => .error (.complaint (.notConvertible value.typeName .integer) line)
  | .float x =>
      match Real.view x with
      | .finite parts => .ok (.int parts.truncate)
      | .infinite _ => .error .infinite
      | .undefined => .error (.complaint (.notConvertible value.typeName .integer) line)
  | other => .error (.notNumeric other.typeName)

/-- A value made to fit a type. -/
def convert (store : Store) (value : Value) (type : String) (line : Int) : Except Fault Value :=
  if type = "integer" then toInteger value line
  else if type = "string" then
    match store.shown value with
    | .ok text => .ok (.str text)
    | .error fault => .error (.text fault)
  else if type = "boolean" then
    if isBoolean value then .ok value
    else .error (.complaint (.notConvertible value.typeName .boolean) line)
  else if isArrayType type then
    if isList value then .ok value
    else .error (.complaint (.notConvertible value.typeName .array) line)
  else if type = "any" then .ok value
  else .error (.complaint (.unknownType type) line)

end Mus.Line
