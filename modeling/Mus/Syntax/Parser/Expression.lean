import Mus.Syntax.Cursor

/-! Parsing expressions by recursive descent, from the loosest binding to the
tightest: assignment, equality, comparison, sum, product, sign, call, primary.
The first argument of the recursive parsers bounds their depth. -/
namespace Mus.Parse

/-- Goes on with operators of one level, grouping from the left. -/
def operators (kinds : List TokenKind) (operand : Parse Expr) : Nat → Expr → Parse Expr
  | 0, _ => throw .outOfFuel
  | fuel + 1, left => do
      if ← accept kinds then
        let operator ← previous
        let right ← operand
        operators kinds operand fuel (.binary left operator right)
      else return left

/-- Operands of one level joined by its operators. -/
def level (kinds : List TokenKind) (operand : Parse Expr) (fuel : Nat) : Parse Expr := do
  let first ← operand
  operators kinds operand fuel first

def product (operand : Parse Expr) (fuel : Nat) : Parse Expr :=
  level [.multiply, .divide, .modulo] operand fuel

def sum (operand : Parse Expr) (fuel : Nat) : Parse Expr :=
  level [.plus, .minus] (product operand fuel) fuel

def comparison (operand : Parse Expr) (fuel : Nat) : Parse Expr :=
  level [.greater, .greaterEqual, .less, .lessEqual] (sum operand fuel) fuel

def equality (operand : Parse Expr) (fuel : Nat) : Parse Expr :=
  level [.equals, .notEquals] (comparison operand fuel) fuel

/-- What an assignment to an expression becomes, if it can be assigned to. -/
def assignTo (target value : Expr) (equals : Token) : Parse Expr :=
  match target with
  | .variable name _ => return .set target name value equals
  | .get object name _ => return .set object name value equals
  | _ => reject .assignmentTarget equals

/-- The description of an index, which names the property that is read. -/
def indexName (index : Expr) : Parse String :=
  match index.describe .none with
  | .ok text => return text
  | .error fault => throw (.indexText fault)

mutual

/-- Assignments, grouping from the right. -/
def assignment : Nat → Parse Expr
  | 0 => throw .outOfFuel
  | fuel + 1 => do
      let target ← equality (unary fuel) fuel
      if ← accept [.assign] then
        let equals ← previous
        let value ← assignment fuel
        assignTo target value equals
      else return target

/-- Signs and negations before an operand. -/
def unary : Nat → Parse Expr
  | 0 => throw .outOfFuel
  | fuel + 1 => do
      if ← accept [.not, .minus] then
        let operator ← previous
        let right ← unary fuel
        return .unary operator right
      else call fuel

/-- A primary expression with its calls, properties and indices. -/
def call : Nat → Parse Expr
  | 0 => throw .outOfFuel
  | fuel + 1 => do
      let first ← primary fuel
      suffixes fuel first

/-- Calls, properties and indices after an expression. -/
def suffixes : Nat → Expr → Parse Expr
  | 0, _ => throw .outOfFuel
  | fuel + 1, e => do
      if ← accept [.leftParen] then
        let arguments ← items .rightParen fuel
        let paren ← consume .rightParen .argumentsClose
        suffixes fuel (.call e arguments paren)
      else if ← accept [.dot] then
        let name ← consume .identifier .propertyName
        suffixes fuel (.get e name.lexeme name)
      else if ← accept [.leftBracket] then
        let index ← assignment fuel
        let bracket ← consume .rightBracket .indexClose
        let name ← indexName index
        suffixes fuel (.get e name bracket)
      else return e

/-- Expressions with commas between them up to a closing token, which is left
to be read. -/
def items (close : TokenKind) : Nat → Parse (List Expr)
  | 0 => throw .outOfFuel
  | fuel + 1 => do
      if ← check close then return []
      else moreItems fuel

/-- One expression at least, and more after each comma. -/
def moreItems : Nat → Parse (List Expr)
  | 0 => throw .outOfFuel
  | fuel + 1 => do
      let first ← assignment fuel
      if ← accept [.comma] then
        let rest ← moreItems fuel
        return first :: rest
      else return [first]

/-- Literals, names, groups, array literals and new instances. -/
def primary : Nat → Parse Expr
  | 0 => throw .outOfFuel
  | fuel + 1 => do
      if ← accept [.integer, .string, .boolean] then
        let token ← previous
        return .literal token.literal token
      else if ← accept [.thisWord] then
        return .this (← previous)
      else if ← accept [.superWord] then
        let token ← previous
        let _ ← consume .dot .superDot
        let method ← consume .identifier .superMethod
        return .super method.lexeme token
      else if ← accept [.identifier] then
        let token ← previous
        return .variable token.lexeme token
      else if ← accept [.leftParen] then
        let e ← assignment fuel
        let _ ← consume .rightParen .groupClose
        return e
      else if ← accept [.leftBracket] then
        let elements ← items .rightBracket fuel
        let bracket ← consume .rightBracket .arrayClose
        return .literal (.list (.constant (elements.map .code))) bracket
      else if ← accept [.newWord] then
        let name ← consume .identifier .newClass
        let _ ← consume .leftParen .newOpen
        let arguments ← items .rightParen fuel
        let paren ← consume .rightParen .argumentsClose
        return .call (.variable name.lexeme name) arguments paren
      else
        reject .expression (← peek)

end

end Mus.Parse
