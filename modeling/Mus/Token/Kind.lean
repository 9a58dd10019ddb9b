/-! The kinds of tokens. -/
namespace Mus

/-- What a token is. Keywords have kinds of their own; `true` and `false` are
Boolean literals. -/
inductive TokenKind where
  | classWord | funWord | varWord | ifWord | elseWord | elifWord | whileWord | forWord | inWord
  | returnWord | thisWord | superWord | extendsWord | newWord
  | integer | string | boolean
  | plus | minus | multiply | divide | modulo
  | assign | equals | notEquals | greater | greaterEqual | less | lessEqual
  | andWord | orWord | not
  | leftParen | rightParen | leftBrace | rightBrace | leftBracket | rightBracket
  | comma | dot | arrow | semicolon
  | identifier | comment | eof
  deriving DecidableEq, Repr, Inhabited

namespace TokenKind

/-- All kinds with their names, in the order in which they are numbered. -/
def table : List (TokenKind × String) := [
  (classWord, "CLASS"), (funWord, "FUN"), (varWord, "VAR"), (ifWord, "IF"), (elseWord, "ELSE"),
  (elifWord, "ELIF"), (whileWord, "WHILE"), (forWord, "FOR"), (inWord, "IN"),
  (returnWord, "RETURN"), (thisWord, "THIS"), (superWord, "SUPER"), (extendsWord, "EXTENDS"),
  (newWord, "NEW"),
  (integer, "INTEGER"), (string, "STRING"), (boolean, "BOOLEAN"),
  (plus, "PLUS"), (minus, "MINUS"), (multiply, "MULTIPLY"), (divide, "DIVIDE"),
  (modulo, "MODULO"), (assign, "ASSIGN"), (equals, "EQUALS"), (notEquals, "NOT_EQUALS"),
  (greater, "GREATER"), (greaterEqual, "GREATER_EQUAL"), (less, "LESS"),
  (lessEqual, "LESS_EQUAL"), (andWord, "AND"), (orWord, "OR"), (not, "NOT"),
  (leftParen, "LEFT_PAREN"), (rightParen, "RIGHT_PAREN"), (leftBrace, "LEFT_BRACE"),
  (rightBrace, "RIGHT_BRACE"), (leftBracket, "LEFT_BRACKET"), (rightBracket, "RIGHT_BRACKET"),
  (comma, "COMMA"), (dot, "DOT"), (arrow, "ARROW"), (semicolon, "SEMICOLON"),
  (identifier, "IDENTIFIER"), (comment, "COMMENT"), (eof, "EOF")]

def name (kind : TokenKind) : String :=
  (table.lookup kind).getD ""

/-- Kinds are numbered from one on. -/
def number (kind : TokenKind) : Nat :=
  table.findIdx (fun entry => entry.1 == kind) + 1

def ofName? (name : String) : Option TokenKind :=
  (table.find? fun entry => entry.2 == name).map Prod.fst

/-- The words that are not identifiers. -/
def keywords : List (String × TokenKind) := [
  ("class", classWord), ("fun", funWord), ("var", varWord), ("if", ifWord), ("else", elseWord),
  ("elif", elifWord), ("while", whileWord), ("for", forWord), ("in", inWord),
  ("return", returnWord), ("this", thisWord), ("super", superWord), ("extends", extendsWord),
  ("new", newWord), ("true", boolean), ("false", boolean)]

def ofWord (word : String) : TokenKind :=
  (keywords.lookup word).getD identifier

end TokenKind

end Mus
