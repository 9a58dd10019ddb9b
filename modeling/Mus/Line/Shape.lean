import Mus.Text.Blank
import Mus.Text.Digit

/-! The shapes of lines. Each reader looks at the start of a line and yields the
parts it holds; what follows them is not looked at. -/
namespace Mus.Line.Shape

open Mus.Text

def after? (text : String) (cs : List Char) : Option (List Char) :=
  if text.toList.isPrefixOf cs then some (cs.drop text.toList.length) else none

def word? (cs : List Char) : Option (List Char × List Char) :=
  match cs.takeWhile isWordChar with
  | [] => none
  | word => some (word, cs.dropWhile isWordChar)

def dropBlanks (cs : List Char) : List Char := cs.dropWhile isBlank

def firstLine (cs : List Char) : List Char := cs.takeWhile (· != '\n')

/-- What stands before the last `close` of the line. -/
def upToLast? (close : Char) (cs : List Char) : Option (List Char) :=
  match (firstLine cs).reverse.dropWhile (· != close) with
  | [] => none
  | _ :: before => some before.reverse

/-- An expression after blanks: the rest of the line, which is not empty. Where
only blanks follow, the last one that ends no line is the expression. -/
def expression? (cs : List Char) : Option (List Char) :=
  match dropBlanks cs with
  | c :: rest => some (firstLine (c :: rest))
  | [] =>
      match cs.reverse.dropWhile (· == '\n') with
      | [] => none
      | c :: _ => some [c]

/-- A type: a word, or a word with another in angle brackets. -/
def type? (cs : List Char) : Option (List Char × List Char) := do
  let (outer, rest) ← word? cs
  let element : Option (List Char × List Char) := do
    let inside ← after? "<" rest
    let (inner, rest) ← word? inside
    let rest ← after? ">" rest
    return (outer ++ '<' :: inner ++ ['>'], rest)
  return element.getD (outer, rest)

structure Declaration where
  name : String
  type : String
  expression : String
  deriving DecidableEq, Repr

/-- Reads `var name => type = expression`. -/
def declaration? (line : String) : Option Declaration := do
  let rest ← after? "var" line.toList
  guard ((rest.head?).any isBlank)
  let (name, rest) ← word? (dropBlanks rest)
  let rest ← after? "=>" (dropBlanks rest)
  let (type, rest) ← type? (dropBlanks rest)
  let rest ← after? "=" (dropBlanks rest)
  let expression ← expression? rest
  return ⟨String.ofList name, String.ofList type, String.ofList expression⟩

/-- Reads `name = expression`. -/
def assignment? (line : String) : Option (String × String) := do
  let (name, rest) ← word? line.toList
  let rest ← after? "=" (dropBlanks rest)
  let expression ← expression? rest
  return (String.ofList name, String.ofList expression)

/-- Reads `name(arguments)` for a given name. -/
def command? (name : String) (line : String) : Option String := do
  let rest ← after? (name ++ "(") line.toList
  return String.ofList (← upToLast? ')' rest)

/-- Reads `name(arguments)` for any name. -/
def call? (line : String) : Option (String × String) := do
  let (name, rest) ← word? line.toList
  let rest ← after? "(" (dropBlanks rest)
  return (String.ofList name, String.ofList (← upToLast? ')' rest))

/-- Is this `name[index]`? -/
def isAccess (line : String) : Bool :=
  (do
    let (_, rest) ← word? line.toList
    let rest ← after? "[" (dropBlanks rest)
    upToLast? ']' rest).isSome

/-- Reads `name.push(expression)`. -/
def push? (line : String) : Option (String × String) := do
  let (name, rest) ← word? line.toList
  let rest ← after? ".push(" rest
  return (String.ofList name, String.ofList (← upToLast? ')' rest))

/-- Reads `name.pop()`. -/
def pop? (line : String) : Option String := do
  let (name, rest) ← word? line.toList
  let _ ← after? ".pop()" rest
  return String.ofList name

/-- Is this `name.length()`? -/
def isLength (line : String) : Bool :=
  (do
    let (_, rest) ← word? line.toList
    after? ".length()" rest).isSome

def trimmed (text : String) : String := String.ofList (stripBlanks text.toList)

/-- The expression of a line that returns, once its blanks at the ends are
gone. -/
def returned? (line : String) : Option String :=
  (after? "return " line.toList).map fun rest => trimmed (String.ofList rest)

def commaParts (text : String) : List String :=
  (text.toList.splitOn ',').map String.ofList

end Mus.Line.Shape
