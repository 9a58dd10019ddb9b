import Mus.Syntax.Description
import Mus.Token.Fault

/-! What can go wrong in parsing. -/
namespace Mus

/-- The part of the grammar that a token does not fit. -/
inductive Expectation where
  | className | superclassName | classBodyOpen | member | classBodyClose
  | functionName | parametersOpen | parameterName | parameterArrow | parameterType
  | parametersClose | functionBodyOpen | functionBodyClose
  | variableName | variableArrow | variableType
  | ifOpen | whileOpen | conditionClose
  | forOpen | iteratorName | iteratorAssign | forFirstSemicolon | forSecondSemicolon | forClose
  | blockClose
  | expression | assignmentTarget | propertyName | indexClose | argumentsClose
  | superDot | superMethod | groupClose | arrayClose | newClass | newOpen
  deriving DecidableEq, Repr

def Expectation.text : Expectation → String
  | .className => "Expected class name."
  | .superclassName => "Expected superclass name."
  | .classBodyOpen => "Expected '\x7b' before class body."
  | .member => "Expected field or method declaration."
  | .classBodyClose => "Expected '\x7d' after class body."
  | .functionName => "Expected function name."
  | .parametersOpen => "Expected '(' after function name."
  | .parameterName => "Expected parameter name."
  | .parameterArrow => "Expected '=>' after parameter name."
  | .parameterType => "Expected parameter type."
  | .parametersClose => "Expected ')' after parameters."
  | .functionBodyOpen => "Expected '\x7b' before function body."
  | .functionBodyClose => "Expected '\x7d' after function body."
  | .variableName => "Expected variable name."
  | .variableArrow => "Expected '=>' after variable name."
  | .variableType => "Expected variable type."
  | .ifOpen => "Expected '(' after 'if'."
  | .whileOpen => "Expected '(' after 'while'."
  | .conditionClose => "Expected ')' after condition."
  | .forOpen => "Expected '(' after 'for'."
  | .iteratorName => "Expected iterator variable name."
  | .iteratorAssign => "Expected '=' after iterator variable."
  | .forFirstSemicolon => "Expected ';' after loop initializer."
  | .forSecondSemicolon => "Expected ';' after loop condition."
  | .forClose => "Expected ')' after for clauses."
  | .blockClose => "Expected '\x7d' after block."
  | .expression => "Expected expression."
  | .assignmentTarget => "Invalid assignment target."
  | .propertyName => "Expected property name after '.'."
  | .indexClose => "Expected ']' after array index."
  | .argumentsClose => "Expected ')' after arguments."
  | .superDot => "Expected '.' after 'super'."
  | .superMethod => "Expected superclass method name."
  | .groupClose => "Expected ')' after expression."
  | .arrayClose => "Expected ']' after array elements."
  | .newClass => "Expected class name after 'new'."
  | .newOpen => "Expected '(' after class name."

structure SyntaxError where
  expectation : Expectation
  token : Token

def SyntaxError.message (error : SyntaxError) : String :=
  error.expectation.text ++ placeText error.token.line error.token.column

def TextFault.message : TextFault → String
  | .tooManyDigits => digitLimitText ++ digitLimitAdvice
  | .tooDeep => "maximum recursion depth exceeded"
  | .notText typeName => "__str__ returned non-string (type " ++ typeName ++ ")"

/-- Why parsing stops. A syntax error can be recovered from. The other faults
cannot: the tokens end without an end mark, an index has no description, or the
bound on the depth of the recursion is used up. -/
inductive ParseFault where
  | rejected (error : SyntaxError)
  | pastEnd
  | indexText (fault : TextFault)
  | outOfFuel

def ParseFault.message : ParseFault → String
  | .rejected error => error.message
  | .pastEnd => "list index out of range"
  | .indexText fault => fault.message
  | .outOfFuel => "maximum recursion depth exceeded"

end Mus
