/-! Tokens of the line dialect. -/
namespace Mus.Line

/-- The kinds of tokens. An `unknown` token marks the end of the source. -/
inductive Kind where
  | keyword | identifier | typeName | operator | string | number | boolean | separator | comment
  | unknown
  deriving DecidableEq, Repr

def Kind.name : Kind → String
  | .keyword => "KEYWORD"
  | .identifier => "IDENTIFIER"
  | .typeName => "TYPE"
  | .operator => "OPERATOR"
  | .string => "STRING"
  | .number => "NUMBER"
  | .boolean => "BOOLEAN"
  | .separator => "SEPARATOR"
  | .comment => "COMMENT"
  | .unknown => "UNKNOWN"

/-- A token: its kind, its text and the line it is noted on. -/
structure Token where
  kind : Kind
  text : String
  line : Nat
  deriving DecidableEq, Repr

/-- The description of a token. The text stands in quotes as it is. -/
def Token.label (token : Token) : String :=
  "Token(type=TokenType." ++ token.kind.name ++ ", value='" ++ token.text ++ "', line=" ++
    toString token.line ++ ")"

def keywords : List String := [
  "var", "fun", "if", "else", "elif", "while", "for", "in", "return", "class", "extends", "new",
  "this", "out", "import", "from", "export"]

def typeWords : List String := ["string", "integer", "bool", "array"]

def operators : List String := [
  "+", "-", "*", "/", "%", "=", "==", "!=", "<", ">", "<=", ">=", "&&", "||", "!", ".", "=>"]

def separators : List Char := ['(', ')', '\x7b', '\x7d', '[', ']', ',', ';']

def wordKind (word : String) : Kind :=
  if word ∈ keywords then .keyword
  else if word ∈ typeWords then .typeName
  else .identifier

end Mus.Line
