import Mus.Syntax.Basic

/-! The names of the kinds of values, expressions and statements, as messages
show them. -/
namespace Mus

def BoxKind.typeName : BoxKind → String
  | .integer => "MusInt"
  | .string => "MusString"
  | .boolean => "MusBool"

def StmtKind.nodeName : StmtKind → String
  | .base => "Statement"
  | .expression => "ExpressionStmt"
  | .varDecl => "VarDeclaration"
  | .funDecl => "FunctionDeclaration"
  | .classDecl => "ClassDeclaration"
  | .block => "Block"
  | .branch => "If"
  | .loop => "While"
  | .each => "For"
  | .ret => "Return"

def Expr.nodeName : Expr → String
  | .base => "Expression"
  | .stray kind => kind.nodeName
  | .literal .. => "Literal"
  | .variable .. => "Variable"
  | .this .. => "This"
  | .super .. => "Super"
  | .binary .. => "Binary"
  | .unary .. => "Unary"
  | .call .. => "Call"
  | .get .. => "Get"
  | .set .. => "Set"

def Stmt.nodeName : Stmt → String
  | .base => "Statement"
  | .stray e => e.nodeName
  | .expression .. => "ExpressionStmt"
  | .varDecl .. => "VarDeclaration"
  | .funDecl .. => "FunctionDeclaration"
  | .classDecl .. => "ClassDeclaration"
  | .block .. => "Block"
  | .branch .. => "If"
  | .loop .. => "While"
  | .each .. => "For"
  | .ret .. => "Return"

def Value.typeName : Value → String
  | .nothing => "NoneType"
  | .bool _ => "bool"
  | .int _ => "int"
  | .float _ => "float"
  | .str _ => "str"
  | .list _ => "list"
  | .array .. => "MusArray"
  | .box kind _ => kind.typeName
  | .function _ => "MusFunction"
  | .classDef _ => "MusClass"
  | .object _ => "MusObject"
  | .code e => e.nodeName

/-- The full name of a node of the syntax tree. -/
def qualifiedNode (name : String) : String :=
  "<class 'mus.core.parser." ++ name ++ "'>"

/-- The full name of a value's type: the plain types stand alone, the others
below the part of the language that they belong to. -/
def Value.qualifiedType (value : Value) : String :=
  match value with
  | .nothing | .bool _ | .int _ | .float _ | .str _ | .list _ =>
      "<class '" ++ value.typeName ++ "'>"
  | .code e => qualifiedNode e.nodeName
  | _ => "<class 'mus.core.types." ++ value.typeName ++ "'>"

end Mus
