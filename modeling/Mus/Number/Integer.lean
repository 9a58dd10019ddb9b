import Mus.Text.Blank
import Mus.Text.Digit

/-! Reading and writing whole numbers in decimal notation. Both directions stop
at 4300 digits. Reading takes a sign, digits of any script, single underscores
between digits and blanks around the whole. -/
namespace Mus.Integer

open Mus.Text

/-- The most digits that are read or written. -/
def digitLimit : Nat := 4300

inductive ReadFault where
  | malformed
  | tooLong (digits : Nat)
  deriving DecidableEq, Repr

/-- Decimal text of a number that has at most `digitLimit` digits. -/
def text? (n : Int) : Option String :=
  if n.natAbs < Nat.pow 10 digitLimit then some (toString n) else none

/-- The number written by decimal digit values, most significant first. -/
def ofDigits (digits : List Nat) : Nat :=
  digits.foldl (fun total digit => total * 10 + digit) 0

/-- A text in plain notation: blanks and digits beyond ASCII become a space and
ASCII digits. A character that is neither ends the text with a mark that no
number holds. -/
def plain : List Char → List Char
  | [] => []
  | c :: rest =>
      if c.toNat < 127 then c :: plain rest
      else if isBlank c then ' ' :: plain rest
      else match decimalValue? c with
        | some digit => Nat.digitChar digit :: plain rest
        | none => ['?']

/-- The blanks that may surround a number in plain notation. -/
def isPadding (c : Char) : Bool :=
  c == ' ' || decide (9 ≤ c.toNat) && decide (c.toNat ≤ 13)

/-- Is the run of digits and underscores free of doubled and trailing
underscores? The flag says whether an underscore stands just before. -/
def wellSpaced : Bool → List Char → Bool
  | after, [] => !after
  | after, c :: rest =>
      if c = '_' then !after && wellSpaced true rest else wellSpaced false rest

/-- Reads an unsigned number in plain notation. The length is checked before
what follows the digits. -/
def readUnsigned (cs : List Char) : Except ReadFault Nat :=
  let run := cs.takeWhile fun c => c.isDigit || c == '_'
  let digits := run.filter Char.isDigit
  if run.head? = some '_' ∨ digits = [] ∨ wellSpaced false run = false then
    .error .malformed
  else if digitLimit < digits.length then .error (.tooLong digits.length)
  else if (cs.drop run.length).all isPadding then
    .ok (ofDigits (digits.map fun c => c.toNat - 48))
  else .error .malformed

def read (cs : List Char) : Except ReadFault Int :=
  match (plain cs).dropWhile isPadding with
  | '-' :: rest => (readUnsigned rest).map fun n => -(n : Int)
  | '+' :: rest => (readUnsigned rest).map fun n => (n : Int)
  | rest => (readUnsigned rest).map fun n => (n : Int)

end Mus.Integer
