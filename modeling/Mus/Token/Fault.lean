import Mus.Number.Integer
import Mus.Text.Quoted

/-! What can go wrong in scanning a source. -/
namespace Mus

/-- Why scanning stops. Faults of the text carry the place that scanning has
reached; a number that cannot be read and a step past the end do not. -/
inductive LexFault where
  | unexpected (c : Char) (line column : Nat)
  | unterminated (line column : Nat)
  | malformedNumber (text : String)
  | numberTooLong (digits : Nat)
  | pastEnd
  deriving DecidableEq, Repr

def placeText (line column : Int) : String :=
  " at line " ++ toString line ++ ", column " ++ toString column

/-- The start of both messages about numbers with too many digits. -/
def digitLimitText : String :=
  "Exceeds the limit (4300 digits) for integer string conversion"

/-- The end of both messages about numbers with too many digits. -/
def digitLimitAdvice : String :=
  "; use sys.set_int_max_str_digits() to increase the limit"

/-- The message about a text that is not a whole number. Of a long text only the
first two hundred characters of its quoted form are shown. -/
def malformedIntegerText (text : String) : String :=
  "invalid literal for int() with base 10: " ++
    String.ofList ((Text.quoteChars text.toList).take 200)

/-- The message about a number with too many digits to be read. -/
def longIntegerText (digits : Nat) : String :=
  digitLimitText ++ ": value has " ++ toString digits ++ " digits" ++ digitLimitAdvice

def LexFault.message : LexFault → String
  | .unexpected c line column =>
      "Unexpected character: " ++ String.singleton c ++ placeText line column
  | .unterminated line column => "Unterminated string" ++ placeText line column
  | .malformedNumber text => malformedIntegerText text
  | .numberTooLong digits => longIntegerText digits
  | .pastEnd => "string index out of range"

end Mus
