import Mus.Number.Integer
import Mus.Number.Shortest
import Mus.Syntax.Names
import Mus.Text.Lowercase
import Mus.Text.Quoted

/-! Two texts of a value. Its *description* names the parts of composite values
and quotes texts; its *shown* form is what a program prints. They differ for
texts, arrays, wrappers and what lives in the store. The functions here follow
the tree and leave what lives in the store to their first argument. -/
namespace Mus

open Mus.Text

inductive TextFault where
  | tooManyDigits
  | tooDeep
  | notText (typeName : String)
  deriving DecidableEq, Repr

def arrayDescription (items element : String) : String :=
  "MusArray(elements=" ++ items ++ ", element_type=" ++ quoted element ++ ")"

/-- How to write what lives in the store: the items of a cell in brackets,
described or shown, the description of an array whose items are in a cell, and a
described or shown function, class or object. -/
structure StoreText where
  listAt : Nat → Except TextFault String
  itemsAt : Nat → Except TextFault String
  arrayAt : Nat → String → Except TextFault String
  describeAt : Value → Except TextFault String
  showAt : Value → Except TextFault String

/-- The texts of trees that hold nothing from a store. -/
def StoreText.none : StoreText where
  listAt _ := .ok "[...]"
  itemsAt _ := .ok "[...]"
  arrayAt _ element := .ok (arrayDescription "[...]" element)
  describeAt _ := .ok "..."
  showAt _ := .ok "..."

def integerText (n : Int) : Except TextFault String :=
  match Integer.text? n with
  | some text => .ok text
  | none => .error .tooManyDigits

def boolText (b : Bool) : String :=
  if b then "True" else "False"

def bracketed (items : List String) : String :=
  "[" ++ joined ", " items ++ "]"

mutual

def Value.describe (store : StoreText) : Value → Except TextFault String
  | .nothing => .ok "None"
  | .bool b => .ok (boolText b)
  | .int n => integerText n
  | .float x => .ok (Real.text x)
  | .str s => .ok (quoted s)
  | .list items => items.describe store
  | .array (.cell place) element => store.arrayAt place element
  | .array (.constant values) element => do
      return arrayDescription (bracketed (← Value.describeAll store values)) element
  | .box kind inner => do
      return kind.typeName ++ "(value=" ++ (← inner.describe store) ++ ")"
  | .function place => store.describeAt (.function place)
  | .classDef place => store.describeAt (.classDef place)
  | .object place => store.describeAt (.object place)
  | .code e => e.describe store

/-- The items of a list, described, in brackets. -/
def Items.describe (store : StoreText) : Items → Except TextFault String
  | .constant values => do return bracketed (← Value.describeAll store values)
  | .cell place => store.listAt place

def Value.describeAll (store : StoreText) : List Value → Except TextFault (List String)
  | [] => .ok []
  | value :: rest => do return (← value.describe store) :: (← Value.describeAll store rest)

def Token.describe (store : StoreText) : Token → Except TextFault String
  | ⟨kind, lexeme, literal, line, column⟩ => do
      return "Token(type=<TokenType." ++ kind.name ++ ": " ++ toString kind.number ++
        ">, lexeme=" ++ quoted lexeme ++ ", literal=" ++ (← literal.describe store) ++
        ", line=" ++ toString line ++ ", column=" ++ toString column ++ ")"

def Expr.describe (store : StoreText) : Expr → Except TextFault String
  | .base => .ok "Expression()"
  | .stray kind => .ok (kind.nodeName ++ "()")
  | .literal value token => do
      return "Literal(value=" ++ (← value.describe store) ++
        ", token=" ++ (← token.describe store) ++ ")"
  | .variable name token => do
      return "Variable(name=" ++ quoted name ++ ", token=" ++ (← token.describe store) ++ ")"
  | .this token => do return "This(token=" ++ (← token.describe store) ++ ")"
  | .super method token => do
      return "Super(method=" ++ quoted method ++ ", token=" ++ (← token.describe store) ++ ")"
  | .binary left operator right => do
      return "Binary(left=" ++ (← left.describe store) ++
        ", operator=" ++ (← operator.describe store) ++
        ", right=" ++ (← right.describe store) ++ ")"
  | .unary operator right => do
      return "Unary(operator=" ++ (← operator.describe store) ++
        ", right=" ++ (← right.describe store) ++ ")"
  | .call callee arguments token => do
      return "Call(callee=" ++ (← callee.describe store) ++
        ", arguments=" ++ bracketed (← Expr.describeAll store arguments) ++
        ", token=" ++ (← token.describe store) ++ ")"
  | .get object name token => do
      return "Get(object=" ++ (← object.describe store) ++ ", name=" ++ quoted name ++
        ", token=" ++ (← token.describe store) ++ ")"
  | .set object name value token => do
      return "Set(object=" ++ (← object.describe store) ++ ", name=" ++ quoted name ++
        ", value=" ++ (← value.describe store) ++ ", token=" ++ (← token.describe store) ++ ")"

def Expr.describeAll (store : StoreText) : List Expr → Except TextFault (List String)
  | [] => .ok []
  | e :: rest => do return (← e.describe store) :: (← Expr.describeAll store rest)

end

mutual

/-- What a program prints for a value. -/
def Value.shown (store : StoreText) : Value → Except TextFault String
  | .str s => .ok s
  | .array items _ => items.shown store
  | .box .string inner =>
      match inner with
      | .str s => .ok s
      | other => .error (.notText other.typeName)
  | .box .integer inner => inner.shown store
  | .box .boolean inner => do return lower (← inner.shown store)
  | .function place => store.showAt (.function place)
  | .classDef place => store.showAt (.classDef place)
  | .object place => store.showAt (.object place)
  | .nothing => .ok "None"
  | .bool b => .ok (boolText b)
  | .int n => integerText n
  | .float x => .ok (Real.text x)
  | .list items => items.describe store
  | .code e => e.describe store

/-- The items of an array, shown, in brackets. -/
def Items.shown (store : StoreText) : Items → Except TextFault String
  | .constant values => do return bracketed (← Value.shownAll store values)
  | .cell place => store.itemsAt place

def Value.shownAll (store : StoreText) : List Value → Except TextFault (List String)
  | [] => .ok []
  | value :: rest => do return (← value.shown store) :: (← Value.shownAll store rest)

end

/-- A token as the front end lists it: the name of its kind, its text and the
value of its literal, if it has one. -/
def Token.label (token : Token) : Except TextFault String :=
  match token.literal with
  | .nothing => .ok (token.kind.name ++ "(" ++ token.lexeme ++ ")")
  | literal => do
      return token.kind.name ++ "(" ++ token.lexeme ++ ", " ++ (← literal.shown .none) ++ ")"

end Mus
