import Mus.Syntax.Fault

/-! A place in a list of tokens, with the steps from which the parser is built.
The list ends with an end mark, which is never passed; where it is missing, the
parser runs against the end of the list. -/
namespace Mus

/-- A place between two tokens: those before it, nearest first, those after it,
and the syntax errors that have been recovered from, latest first. -/
structure Cursor where
  before : List Token
  rest : List Token
  recovered : List SyntaxError := []

/-- A parser reads on from a cursor. On failure the cursor stays where it was. -/
abbrev Parse := EStateM ParseFault Cursor

namespace Cursor

def ofTokens (tokens : List Token) : Cursor := ⟨[], tokens, []⟩

/-- The place at a position, where a negative position counts from the end of
the list and the list is read a second time after it. Before the first position
stands the last token. -/
def seek (tokens : List Token) (position : Int) : Option Cursor :=
  let index := position + tokens.length
  if 0 ≤ index ∧ index ≤ 2 * tokens.length then
    some ⟨((tokens ++ tokens).take index.toNat).reverse, (tokens ++ tokens).drop index.toNat, []⟩
  else none

/-- The position of a place reached by `seek`. -/
def position (tokens : List Token) (cursor : Cursor) : Int :=
  cursor.before.length - tokens.length

end Cursor

namespace Parse

def peek : Parse Token := fun cursor =>
  match cursor.rest with
  | [] => .error .pastEnd cursor
  | token :: _ => .ok token cursor

def previous : Parse Token := fun cursor =>
  match cursor.before with
  | [] => .error .pastEnd cursor
  | token :: _ => .ok token cursor

def atEnd : Parse Bool := do
  return (← peek).kind == .eof

/-- Reads a token, unless it is the end mark, and returns the last token read. -/
def advance : Parse Token := fun cursor =>
  match cursor.rest with
  | [] => .error .pastEnd cursor
  | token :: rest =>
      if token.kind = .eof then previous cursor
      else .ok token { cursor with before := token :: cursor.before, rest := rest }

/-- Is the next token of this kind? The end mark is of no kind. -/
def check (kind : TokenKind) : Parse Bool := do
  let token ← peek
  return token.kind != .eof && token.kind == kind

/-- Reads the next token if it is of one of these kinds. -/
def accept (kinds : List TokenKind) : Parse Bool := fun cursor =>
  match cursor.rest with
  | [] => .error .pastEnd cursor
  | token :: rest =>
      if token.kind ≠ .eof ∧ token.kind ∈ kinds then
        .ok true { cursor with before := token :: cursor.before, rest := rest }
      else .ok false cursor

def reject {α : Type} (expectation : Expectation) (token : Token) : Parse α :=
  throw (.rejected ⟨expectation, token⟩)

def consume (kind : TokenKind) (expectation : Expectation) : Parse Token := fun cursor =>
  match cursor.rest with
  | [] => .error .pastEnd cursor
  | token :: rest =>
      if token.kind ≠ .eof ∧ token.kind = kind then
        .ok token { cursor with before := token :: cursor.before, rest := rest }
      else .error (.rejected ⟨expectation, token⟩) cursor

/-- The kinds of tokens that begin a declaration or a compound statement. -/
def startsStatement (kind : TokenKind) : Bool :=
  [.classWord, .funWord, .varWord, .ifWord, .whileWord, .forWord, .returnWord].contains kind

/-- The tokens before and after the next place where parsing can go on: after a
closing brace, before a word that starts a statement, or at the end mark. -/
def resume : List Token → List Token → Option (List Token × List Token)
  | _, [] => none
  | before, token :: rest =>
      if token.kind = .eof ∨ (before.head?.map Token.kind) = some .rightBrace ∨
          startsStatement token.kind then
        some (before, token :: rest)
      else resume (token :: before) rest

/-- Leaves the token at fault behind and reads on to where parsing can go on. -/
def synchronize : Parse Unit := do
  let _ ← advance
  fun cursor =>
    match resume cursor.before cursor.rest with
    | some (before, rest) => .ok () { cursor with before := before, rest := rest }
    | none =>
        .error .pastEnd { cursor with before := cursor.rest.reverse ++ cursor.before, rest := [] }

end Parse

end Mus
