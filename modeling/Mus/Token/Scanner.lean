import Mus.Syntax.Basic
import Mus.Token.Fault

/-! Scanning a source into tokens. A scanner stands between the characters that
are read and those that are left. It remembers what it has read since the
current token began and the line and column that it has reached. -/
namespace Mus

open Mus.Text

/-- A scanner: the number of characters read, those of them that belong to the
current token, those that are left, the place reached and the tokens found. -/
structure Scanner where
  consumed : Nat
  lexeme : List Char
  rest : List Char
  line : Nat
  column : Nat
  tokens : Array Token

namespace Scanner

def ofChars (source : List Char) : Scanner := ⟨0, [], source, 1, 1, #[]⟩

/-- A failure keeps the scanner as it was when scanning stopped. -/
structure Failure where
  fault : LexFault
  scanner : Scanner

def start (s : Scanner) : Nat := s.consumed - s.lexeme.length

def atEnd (s : Scanner) : Bool := s.rest.isEmpty

/-- The next character; NUL at the end. -/
def peek (s : Scanner) : Char := s.rest.headD '\x00'

/-- The character after the next; NUL beyond the end. -/
def peekNext (s : Scanner) : Char := s.rest.tail.headD '\x00'

/-- The next token begins here. -/
def begin (s : Scanner) : Scanner := { s with lexeme := [] }

/-- Moves over the run of characters that satisfy `p`. -/
def skip (p : Char → Bool) (s : Scanner) : Scanner :=
  let run := s.rest.takeWhile p
  { s with
    consumed := s.consumed + run.length
    lexeme := s.lexeme ++ run
    rest := s.rest.dropWhile p
    column := s.column + run.length }

def advance (s : Scanner) : Except Failure (Char × Scanner) :=
  match s.rest with
  | [] => .error ⟨.pastEnd, s⟩
  | c :: rest =>
      .ok (c, { s with
        consumed := s.consumed + 1
        lexeme := s.lexeme ++ [c]
        rest := rest
        column := s.column + 1 })

/-- Reads the next character if it is the expected one. -/
def accept (expected : Char) (s : Scanner) : Option Scanner :=
  match s.rest with
  | [] => none
  | c :: rest =>
      if c = expected then
        some { s with
          consumed := s.consumed + 1
          lexeme := s.lexeme ++ [c]
          rest := rest
          column := s.column + 1 }
      else none

/-- Adds a token with the text read since the current token began. -/
def emit (kind : TokenKind) (literal : Value) (s : Scanner) : Scanner :=
  { s with
    tokens := s.tokens.push
      ⟨kind, String.ofList s.lexeme, literal, s.line, s.column - s.lexeme.length⟩ }

def identifier (s : Scanner) : Scanner :=
  let s := s.skip isWordChar
  let word := String.ofList s.lexeme
  let kind := TokenKind.ofWord word
  s.emit kind (if kind = .boolean then .bool (word == "true") else .nothing)

/-- Reads on to the end of a number, with one fraction if a digit follows the
point. -/
def skipNumber (s : Scanner) : Scanner :=
  let s := s.skip isDigit
  match s.rest with
  | '.' :: c :: _ =>
      if isDigit c then
        match s.accept '.' with
        | some s => s.skip isDigit
        | none => s
      else s
  | _ => s

/-- Reads on to the end of a number and adds it. The text has to be a whole
number. -/
def number (s : Scanner) : Except Failure Scanner :=
  let s := s.skipNumber
  match Integer.read s.lexeme with
  | .ok n => .ok (s.emit .integer (.int n))
  | .error .malformed => .error ⟨.malformedNumber (String.ofList s.lexeme), s⟩
  | .error (.tooLong digits) => .error ⟨.numberTooLong digits, s⟩

/-- The column after a character of a text: a line end sets it back. -/
def columnAfter (column : Nat) (c : Char) : Nat :=
  if c = '\n' then 2 else column + 1

/-- Reads on to the closing quote of a text and adds it without the quotes. -/
def string (s : Scanner) : Except Failure Scanner :=
  let run := s.rest.takeWhile (· != '\x22')
  let s := { s with
    consumed := s.consumed + run.length
    lexeme := s.lexeme ++ run
    rest := s.rest.dropWhile (· != '\x22')
    line := s.line + run.count '\n'
    column := run.foldl columnAfter s.column }
  match s.accept '\x22' with
  | none => .error ⟨.unterminated s.line s.column, s⟩
  | some s => .ok (s.emit .string (.str (String.ofList (s.lexeme.drop 1).dropLast)))

/-- Characters that are tokens by themselves. -/
def symbol? : Char → Option TokenKind
  | '(' => some .leftParen
  | ')' => some .rightParen
  | '\x7b' => some .leftBrace
  | '\x7d' => some .rightBrace
  | '[' => some .leftBracket
  | ']' => some .rightBracket
  | ',' => some .comma
  | '.' => some .dot
  | '+' => some .plus
  | '*' => some .multiply
  | '%' => some .modulo
  | ';' => some .semicolon
  | _ => none

/-- A token of two characters if the second follows, else another scan. -/
def pair (second : Char) (kind : TokenKind) (s : Scanner) (otherwise : Scanner) : Scanner :=
  match s.accept second with
  | some s => s.emit kind .nothing
  | none => otherwise

/-- A comment if the second character of its mark follows, else a token. -/
def commentOr (second : Char) (kind : TokenKind) (s : Scanner) : Scanner :=
  match s.accept second with
  | some s => s.skip (· != '\n')
  | none => s.emit kind .nothing

/-- Goes on after the first character of a token, a blank or a comment. -/
def scanAfter (c : Char) (s : Scanner) : Except Failure Scanner :=
  match symbol? c with
  | some kind => .ok (s.emit kind .nothing)
  | none =>
      if c = '=' then
        .ok (s.pair '=' .equals (s.pair '>' .arrow (s.emit .assign .nothing)))
      else if c = '!' then .ok (s.pair '=' .notEquals (s.emit .not .nothing))
      else if c = '>' then .ok (s.pair '=' .greaterEqual (s.emit .greater .nothing))
      else if c = '<' then .ok (s.pair '=' .lessEqual (s.emit .less .nothing))
      else if c = '-' then .ok (s.commentOr '-' .minus)
      else if c = '/' then .ok (s.commentOr '/' .divide)
      else if c = ' ' ∨ c = '\r' ∨ c = '\t' then .ok s
      else if c = '\n' then .ok { s with line := s.line + 1, column := 1 }
      else if c = '\x22' then s.string
      else if isDigit c then s.number
      else if isLetter c ∨ c = '_' then .ok s.identifier
      else .error ⟨.unexpected c s.line s.column, s⟩

def scanToken (s : Scanner) : Except Failure Scanner :=
  match s.advance with
  | .error failure => .error failure
  | .ok (c, s) => s.scanAfter c

/-! Scanning never gives back what it has read. -/

theorem length_skip_rest_le (p : Char → Bool) (s : Scanner) :
    (s.skip p).rest.length ≤ s.rest.length := by
  simpa [skip] using (List.dropWhile_sublist p (l := s.rest)).length_le

theorem accept_rest {s t : Scanner} {c : Char} (h : s.accept c = some t) :
    s.rest = c :: t.rest := by
  unfold accept at h
  split at h
  · simp at h
  · split at h
    · cases h; simp_all
    · simp at h

@[simp]
theorem emit_rest (kind : TokenKind) (literal : Value) (s : Scanner) :
    (s.emit kind literal).rest = s.rest := rfl

/-- A second character only makes the rest shorter. -/
theorem length_pair_rest_le {second : Char} {kind : TokenKind} {s otherwise : Scanner}
    (h : otherwise.rest.length ≤ s.rest.length) :
    (s.pair second kind otherwise).rest.length ≤ s.rest.length := by
  unfold pair
  split
  · next t ht => simp [accept_rest ht]
  · exact h

theorem length_commentOr_rest_le (second : Char) (kind : TokenKind) (s : Scanner) :
    (s.commentOr second kind).rest.length ≤ s.rest.length := by
  unfold commentOr
  split
  · next t ht =>
    have := length_skip_rest_le (· != '\n') t
    simp [accept_rest ht]
    omega
  · simp

theorem length_skipNumber_rest_le (s : Scanner) :
    s.skipNumber.rest.length ≤ s.rest.length := by
  have first := length_skip_rest_le isDigit s
  simp only [skipNumber]
  split
  · split
    · split
      · next t ht =>
        have := length_skip_rest_le isDigit t
        have := congrArg List.length (accept_rest ht)
        simp only [List.length_cons] at this
        omega
      · exact first
    · exact first
  · exact first

theorem length_number_rest_le {s t : Scanner} (h : s.number = .ok t) :
    t.rest.length ≤ s.rest.length := by
  simp only [number] at h
  split at h
  · cases h; exact length_skipNumber_rest_le s
  · simp at h
  · simp at h

/-- Reading a string never lengthens the rest. -/
theorem length_string_rest_le {s t : Scanner} (h : s.string = .ok t) :
    t.rest.length ≤ s.rest.length := by
  simp only [string] at h
  split at h
  · simp at h
  · next u hu =>
    cases h
    have left := congrArg List.length (accept_rest hu)
    have right := (List.dropWhile_sublist (· != '\x22') (l := s.rest)).length_le
    simp only [List.length_cons] at left
    simp only [emit_rest]
    omega

/-- What scanning can do after a character has been read. -/
theorem scanAfter_cases {c : Char} {s t : Scanner} {motive : Scanner → Prop}
    (h : s.scanAfter c = .ok t) (emit : ∀ kind, motive (s.emit kind .nothing))
    (pair : ∀ second kind otherwise, motive otherwise → motive (s.pair second kind otherwise))
    (commentOr : ∀ second kind, motive (s.commentOr second kind)) (blank : motive s)
    (newline : motive { s with line := s.line + 1, column := 1 })
    (string : ∀ t, s.string = .ok t → motive t) (number : ∀ t, s.number = .ok t → motive t)
    (identifier : motive s.identifier) : motive t := by
  unfold scanAfter at h
  cases hSymbol : symbol? c with
  | some kind =>
      rw [hSymbol] at h
      cases h
      exact emit kind
  | none =>
      rw [hSymbol] at h
      dsimp only at h
      by_cases hAssign : c = '='
      · rw [if_pos hAssign] at h
        cases h
        exact pair _ _ _ (pair _ _ _ (emit _))
      rw [if_neg hAssign] at h
      by_cases hNot : c = '!'
      · rw [if_pos hNot] at h
        cases h
        exact pair _ _ _ (emit _)
      rw [if_neg hNot] at h
      by_cases hGreater : c = '>'
      · rw [if_pos hGreater] at h
        cases h
        exact pair _ _ _ (emit _)
      rw [if_neg hGreater] at h
      by_cases hLess : c = '<'
      · rw [if_pos hLess] at h
        cases h
        exact pair _ _ _ (emit _)
      rw [if_neg hLess] at h
      by_cases hMinus : c = '-'
      · rw [if_pos hMinus] at h
        cases h
        exact commentOr _ _
      rw [if_neg hMinus] at h
      by_cases hSlash : c = '/'
      · rw [if_pos hSlash] at h
        cases h
        exact commentOr _ _
      rw [if_neg hSlash] at h
      by_cases hBlank : c = ' ' ∨ c = '\r' ∨ c = '\t'
      · rw [if_pos hBlank] at h
        cases h
        exact blank
      rw [if_neg hBlank] at h
      by_cases hNewline : c = '\n'
      · rw [if_pos hNewline] at h
        cases h
        exact newline
      rw [if_neg hNewline] at h
      by_cases hQuote : c = '\x22'
      · rw [if_pos hQuote] at h
        exact string t h
      rw [if_neg hQuote] at h
      by_cases hDigit : isDigit c = true
      · rw [if_pos hDigit] at h
        exact number t h
      rw [if_neg hDigit] at h
      by_cases hLetter : isLetter c = true ∨ c = '_'
      · rw [if_pos hLetter] at h
        cases h
        exact identifier
      rw [if_neg hLetter] at h
      cases h

/-- Whatever a token starts with, scanning it never lengthens the rest. -/
theorem length_scanAfter_rest_le {c : Char} {s t : Scanner} (h : s.scanAfter c = .ok t) :
    t.rest.length ≤ s.rest.length := by
  refine scanAfter_cases (motive := fun t => t.rest.length ≤ s.rest.length) h ?emit ?pair
    ?commentOr ?blank ?newline ?string ?number ?identifier
  case emit => exact fun _ => Nat.le_refl _
  case pair => exact fun _ _ _ => length_pair_rest_le
  case commentOr => exact fun second kind => length_commentOr_rest_le second kind s
  case blank => exact Nat.le_refl _
  case newline => exact Nat.le_refl _
  case string => exact fun _ => length_string_rest_le
  case number => exact fun _ => length_number_rest_le
  case identifier => exact length_skip_rest_le isWordChar s

/-- Each token, blank or comment takes one character at least. -/
theorem length_scanToken_rest_lt {s t : Scanner} (h : s.scanToken = .ok t) :
    t.rest.length < s.rest.length := by
  unfold scanToken advance at h
  split at h
  · simp at h
  · next c u hu =>
    split at hu
    · simp at hu
    · next d rest hrest =>
      simp only [Except.ok.injEq, Prod.mk.injEq] at hu
      obtain ⟨rfl, rfl⟩ := hu
      have := length_scanAfter_rest_le h
      simp only [hrest, List.length_cons]
      exact Nat.lt_succ_of_le this

/-- Scans all that is left and adds the token that marks the end. -/
def scanTokens (s : Scanner) : Except Failure Scanner :=
  if s.atEnd then
    .ok { s with tokens := s.tokens.push ⟨.eof, "", .nothing, s.line, s.column⟩ }
  else
    match _h : s.begin.scanToken with
    | .error failure => .error failure
    | .ok t => t.scanTokens
termination_by s.rest.length
decreasing_by exact length_scanToken_rest_lt (s := s.begin) _h

end Scanner

def tokenize (source : String) : Except Scanner.Failure (List Token) :=
  (Scanner.ofChars source.toList).scanTokens.map fun s => s.tokens.toList

end Mus
