import Mus.Syntax.Parser.Expression

/-! Parsing statements and declarations. A declaration with a syntax error is
replaced by a placeholder and parsing goes on behind it. The first argument of
the recursive parsers bounds their depth. -/
namespace Mus.Parse

/-- What stands for a declaration with a syntax error: the empty literal at the
token at fault. -/
def placeholder (error : SyntaxError) : Stmt :=
  .expression (.literal .nothing error.token)

/-- Runs a parser. After a syntax error, notes it, reads on to where parsing can
go on and returns the placeholder. -/
def recovering (parser : Parse Stmt) : Parse Stmt := fun cursor =>
  match parser cursor with
  | .error (.rejected error) cursor =>
      match synchronize cursor with
      | .ok () cursor =>
          .ok (placeholder error) { cursor with recovered := error :: cursor.recovered }
      | .error fault cursor => .error fault cursor
  | result => result

/-- The declaration of a variable, after its first word. -/
def varDeclaration (fuel : Nat) : Parse VarDecl := do
  let name ← consume .identifier .variableName
  let _ ← consume .arrow .variableArrow
  let type ← consume .identifier .variableType
  if ← accept [.assign] then
    let initializer ← assignment fuel
    return ⟨name.lexeme, type.lexeme, some initializer, name⟩
  else return ⟨name.lexeme, type.lexeme, none, name⟩

/-- One parameter at least, and more after each comma. -/
def moreParameters : Nat → Parse Params
  | 0 => throw .outOfFuel
  | fuel + 1 => do
      let name ← consume .identifier .parameterName
      let _ ← consume .arrow .parameterArrow
      let type ← consume .identifier .parameterType
      if ← accept [.comma] then
        let rest ← moreParameters fuel
        return (name.lexeme, type.lexeme) :: rest
      else return [(name.lexeme, type.lexeme)]

/-- Parameters up to the closing parenthesis, which is left to be read. -/
def parameters (fuel : Nat) : Parse Params := do
  if ← check .rightParen then return []
  else moreParameters fuel

/-- The statement that a counting loop becomes: a block that declares the
iterator and repeats the body, with the step at its end. -/
def countingLoop (iterator : String) (start condition increment : Expr) (body : Stmt) : Stmt :=
  let declaration : VarDecl :=
    ⟨iterator, "integer", some start, ⟨.identifier, iterator, .nothing, 0, 0⟩⟩
  let step := Stmt.expression increment
  let repeated :=
    match body with
    | .block statements => Stmt.block (statements ++ [step])
    | other => Stmt.block [other, step]
  .block [.varDecl declaration, .loop condition repeated]

/-- The value of a return statement, after its first word. Only a closing brace
ends a statement without a value. -/
def returnStatement (fuel : Nat) : Parse Stmt := do
  let token ← previous
  if ← check .rightBrace then return .ret none token
  else
    let value ← assignment fuel
    return .ret (some value) token

/-- The name of the superclass, if one is given. -/
def superclassName : Parse (Option String) := do
  if ← accept [.extendsWord] then
    return some (← consume .identifier .superclassName).lexeme
  else return none

mutual

/-- A declaration or a statement, with recovery from syntax errors. -/
def declaration : Nat → Parse Stmt
  | 0 => throw .outOfFuel
  | fuel + 1 => recovering (plainDeclaration fuel)

def plainDeclaration : Nat → Parse Stmt
  | 0 => throw .outOfFuel
  | fuel + 1 => do
      if ← accept [.classWord] then classDeclaration fuel
      else if ← accept [.funWord] then return .funDecl (← functionDeclaration fuel)
      else if ← accept [.varWord] then return .varDecl (← varDeclaration fuel)
      else statement fuel

/-- A class, after its first word. -/
def classDeclaration : Nat → Parse Stmt
  | 0 => throw .outOfFuel
  | fuel + 1 => do
      let name ← consume .identifier .className
      let superclass ← superclassName
      let _ ← consume .leftBrace .classBodyOpen
      let (fields, methods) ← members fuel
      let _ ← consume .rightBrace .classBodyClose
      return .classDecl name.lexeme superclass fields methods name

/-- The fields and the methods of a class up to the closing brace. -/
def members : Nat → Parse (List VarDecl × List FunDecl)
  | 0 => throw .outOfFuel
  | fuel + 1 => do
      if (← check .rightBrace) || (← atEnd) then return ([], [])
      else if ← accept [.varWord] then
        let field ← varDeclaration fuel
        let (fields, methods) ← members fuel
        return (field :: fields, methods)
      else if ← accept [.funWord] then
        let method ← functionDeclaration fuel
        let (fields, methods) ← members fuel
        return (fields, method :: methods)
      else reject .member (← peek)

def functionDeclaration : Nat → Parse FunDecl
  | 0 => throw .outOfFuel
  | fuel + 1 => do
      let name ← consume .identifier .functionName
      let _ ← consume .leftParen .parametersOpen
      let params ← parameters fuel
      let _ ← consume .rightParen .parametersClose
      let _ ← consume .leftBrace .functionBodyOpen
      let body ← declarations fuel
      let _ ← consume .rightBrace .functionBodyClose
      return ⟨name.lexeme, params, body, name⟩

/-- Declarations and statements up to a closing brace or the end mark. -/
def declarations : Nat → Parse (List Stmt)
  | 0 => throw .outOfFuel
  | fuel + 1 => do
      if (← check .rightBrace) || (← atEnd) then return []
      else
        let first ← declaration fuel
        let rest ← declarations fuel
        return first :: rest

/-- A block, after its opening brace. -/
def block : Nat → Parse (List Stmt)
  | 0 => throw .outOfFuel
  | fuel + 1 => do
      let body ← declarations fuel
      let _ ← consume .rightBrace .blockClose
      return body

def statement : Nat → Parse Stmt
  | 0 => throw .outOfFuel
  | fuel + 1 => do
      if ← accept [.ifWord] then ifStatement fuel
      else if ← accept [.whileWord] then whileStatement fuel
      else if ← accept [.forWord] then forStatement fuel
      else if ← accept [.returnWord] then returnStatement fuel
      else if ← accept [.leftBrace] then return .block (← block fuel)
      else return .expression (← assignment fuel)

def ifStatement : Nat → Parse Stmt
  | 0 => throw .outOfFuel
  | fuel + 1 => do
      let _ ← consume .leftParen .ifOpen
      let condition ← assignment fuel
      let _ ← consume .rightParen .conditionClose
      let thenBranch ← statement fuel
      if ← accept [.elseWord] then
        let elseBranch ← statement fuel
        return .branch condition thenBranch (some elseBranch)
      else return .branch condition thenBranch none

def whileStatement : Nat → Parse Stmt
  | 0 => throw .outOfFuel
  | fuel + 1 => do
      let _ ← consume .leftParen .whileOpen
      let condition ← assignment fuel
      let _ ← consume .rightParen .conditionClose
      let body ← statement fuel
      return .loop condition body

/-- A counting loop, after its first word. -/
def forStatement : Nat → Parse Stmt
  | 0 => throw .outOfFuel
  | fuel + 1 => do
      let _ ← consume .leftParen .forOpen
      let _ ← accept [.varWord]
      let iterator ← consume .identifier .iteratorName
      let _ ← consume .assign .iteratorAssign
      let start ← assignment fuel
      let _ ← consume .semicolon .forFirstSemicolon
      let condition ← assignment fuel
      let _ ← consume .semicolon .forSecondSemicolon
      let increment ← assignment fuel
      let _ ← consume .rightParen .forClose
      let body ← statement fuel
      return countingLoop iterator.lexeme start condition increment body

end

def program : Nat → Parse (List Stmt)
  | 0 => throw .outOfFuel
  | fuel + 1 => do
      if ← atEnd then return []
      else
        let first ← declaration fuel
        let rest ← program fuel
        return first :: rest

/-- A bound on the depth of parsing what follows a cursor: each token pays for
the parsers entered before the next one is read, at most nine of them. -/
def fuelFor (cursor : Cursor) : Nat :=
  10 * (cursor.rest.length + 2)

end Mus.Parse

namespace Mus

/-- A parsed program with the syntax errors that were recovered from. -/
structure Program where
  statements : List Stmt
  errors : List SyntaxError

def parse (tokens : List Token) : Except ParseFault Program :=
  let cursor := Cursor.ofTokens tokens
  match Parse.program (Parse.fuelFor cursor) cursor with
  | .ok statements cursor => .ok ⟨statements, cursor.recovered.reverse⟩
  | .error fault _ => .error fault

end Mus
