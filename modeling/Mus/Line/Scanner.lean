import Mus.Line.Notice
import Mus.Line.Token
import Mus.Text.Blank
import Mus.Text.Digit
import Mus.Text.Letter

/-! The scanner of the line dialect. It holds the number of steps taken, the
characters that remain and the number of the line. A step at the end of the
source counts as well. -/
namespace Mus.Line

open Mus.Text

/-- A place in a source. -/
structure Scanner where
  position : Nat
  rest : List Char
  line : Nat

namespace Scanner

def ofChars (source : List Char) : Scanner := ⟨0, source, 1⟩

def current? (scanner : Scanner) : Option Char := scanner.rest.head?

def next? (scanner : Scanner) : Option Char := scanner.rest.tail.head?

/-- The place after blanks and comments. A comment starts with two hyphens and
ends before the end of its line. -/
def skipFrom (inComment : Bool) (position line : Nat) : List Char → Scanner
  | [] => ⟨position, [], line⟩
  | c :: rest =>
      if inComment && c != '\n' then skipFrom true (position + 1) line rest
      else if isBlank c then
        skipFrom false (position + 1) (if c = '\n' then line + 1 else line) rest
      else if c == '-' && rest.head? == some '-' then skipFrom true (position + 1) line rest
      else ⟨position, c :: rest, line⟩

def skip (scanner : Scanner) : Scanner :=
  skipFrom false scanner.position scanner.line scanner.rest

/-- The characters that stand for themselves after a backslash. -/
def isEscaped (c : Char) : Bool := c == '\x22' || c == 'n' || c == 't' || c == '\\'

/-- The text of a string after its opening quote, the number of steps to its end
and the rest. A known escape stays as it is written, an unknown one is dropped.
The end of the source ends a string, too. -/
def stringText : List Char → List Char × Nat × List Char
  | [] => ([], 1, [])
  | '\\' :: [] => ([], 3, [])
  | '\\' :: c :: rest =>
      let (text, steps, rest) := stringText rest
      (if isEscaped c then '\\' :: c :: text else text, steps + 2, rest)
  | c :: rest =>
      if c = '\x22' then ([], 1, rest)
      else
        let (text, steps, rest) := stringText rest
        (c :: text, steps + 1, rest)

/-- A token of a run of characters of one class, of which the first is known to
start it. -/
def run (scanner : Scanner) (belongs : Char → Bool) (kind : String → Kind) : Token × Scanner :=
  let text := scanner.rest.takeWhile belongs
  let word := String.ofList text
  (⟨kind word, word, scanner.line⟩,
    ⟨scanner.position + text.length, scanner.rest.dropWhile belongs, scanner.line⟩)

def operator (scanner : Scanner) (c : Char) (rest : List Char) : Token × Scanner :=
  let single : Token × Scanner :=
    (⟨.operator, String.singleton c, scanner.line⟩, ⟨scanner.position + 1, rest, scanner.line⟩)
  match rest with
  | [] => single
  | d :: after =>
      let pair := String.ofList [c, d]
      if pair ∈ operators then
        (⟨.operator, pair, scanner.line⟩, ⟨scanner.position + 2, after, scanner.line⟩)
      else single

/-- A character that starts no token, and the place where it stands. -/
structure Failure where
  character : Char
  scanner : Scanner

def Failure.notice (failure : Failure) : Notice :=
  .make .syntaxError ("Invalid character: " ++ String.singleton failure.character)
    (some failure.scanner.line)

/-- The token that starts at a character. -/
def tokenAt (scanner : Scanner) (c : Char) (rest : List Char) :
    Except Failure (Token × Scanner) :=
  if isLetter c || c == '_' then .ok (scanner.run isWordChar wordKind)
  else if isDigit c then .ok (scanner.run isDigit fun _ => .number)
  else if c = '\x22' then
    let (text, steps, after) := stringText rest
    .ok (⟨.string, String.ofList text, scanner.line⟩,
      ⟨scanner.position + 1 + steps, after, scanner.line⟩)
  else if String.singleton c ∈ operators then .ok (scanner.operator c rest)
  else if c ∈ separators then
    .ok (⟨.separator, String.singleton c, scanner.line⟩,
      ⟨scanner.position + 1, rest, scanner.line⟩)
  else .error ⟨c, scanner⟩

/-- The next token after blanks and comments. At the end of the source it is an
unknown one. -/
def token (scanner : Scanner) : Except Failure (Token × Scanner) :=
  let start := scanner.skip
  match start.rest with
  | [] => .ok (⟨.unknown, "", start.line⟩, start)
  | c :: rest => start.tokenAt c rest

/-- The tokens of a source up to the unknown one at its end, which comes too, or
those before a failure, and the place reached. Each token takes a character, so
`fuel` need not exceed the number of characters. -/
def tokens : Nat → Scanner → List Token × Except Failure Scanner
  | 0, scanner => ([], .ok scanner)
  | fuel + 1, scanner =>
      match scanner.token with
      | .error failure => ([], .error failure)
      | .ok (token, after) =>
          if token.kind = .unknown then ([token], .ok after)
          else
            let (rest, last) := tokens fuel after
            (token :: rest, last)

end Scanner

/-- The tokens of a source, with the one that marks its end. -/
def scan (source : String) : List Token × Except Scanner.Failure Scanner :=
  Scanner.tokens (source.toList.length + 1) (.ofChars source.toList)

/-- The tokens of a source, without the one that marks its end. -/
def tokenize (source : String) : Except Scanner.Failure (List Token × Scanner) :=
  match scan source with
  | (tokens, .ok last) => .ok (tokens.filter (·.kind ≠ .unknown), last)
  | (_, .error failure) => .error failure

end Mus.Line
