import Mathlib.Data.List.Forall2
import Mus.Proofs.Syntax.Described

/-! Trees of the language as they are written: they keep indices, new instances
and counting loops, which the syntax tree of a program turns into other nodes.
A tree has a printed form, with parentheses only where an expression binds more
loosely than its place requires, and it stands for a syntax tree. -/
namespace Mus.Written

/-- A token of one of these kinds, with a literal that has a description. All
tokens of a source are such. -/
structure Word (kinds : List TokenKind) where
  token : Token
  kind_mem : token.kind ∈ kinds
  described : token.Described

/-- The levels of expressions, from the loosest binding to the tightest. -/
inductive Level where
  | assignment | equality | comparison | sum | product | sign | call | primary
  deriving DecidableEq, Repr

namespace Level

/-- The levels are ordered by how tightly they bind. -/
def rank : Level → Nat
  | assignment => 0
  | equality => 1
  | comparison => 2
  | sum => 3
  | product => 4
  | sign => 5
  | call => 6
  | primary => 7

def next : Level → Level
  | assignment => equality
  | equality => comparison
  | comparison => sum
  | sum => product
  | product => sign
  | sign => call
  | call => primary
  | primary => primary

def operators : Level → List TokenKind
  | equality => [.equals, .notEquals]
  | comparison => [.greater, .greaterEqual, .less, .lessEqual]
  | sum => [.plus, .minus]
  | product => [.multiply, .divide, .modulo]
  | assignment | sign | call | primary => []

def starts : Level → List TokenKind
  | call | primary =>
      [.integer, .string, .boolean, .thisWord, .superWord, .identifier, .leftParen, .leftBracket,
        .newWord]
  | _ =>
      [.integer, .string, .boolean, .thisWord, .superWord, .identifier, .leftParen, .leftBracket,
        .newWord, .not, .minus]

end Level

inductive Term where
  | literal (word : Word [.integer, .string, .boolean])
  | variable (name : Word [.identifier])
  | this (word : Word [.thisWord])
  | super (word : Word [.superWord]) (method : Word [.identifier])
  | unary (operator : Word [.not, .minus]) (right : Term)
  | binary (level : Level) (left : Term) (operator : Word level.operators) (right : Term)
  | call (callee : Term) (arguments : List Term) (close : Word [.rightParen])
  | property (object : Term) (name : Word [.identifier])
  | index (object place : Term) (close : Word [.rightBracket])
  | setVariable (name : Word [.identifier]) (equals : Word [.assign]) (value : Term)
  | setProperty (object : Term) (name : Word [.identifier]) (equals : Word [.assign])
      (value : Term)
  | setIndex (object place : Term) (close : Word [.rightBracket]) (equals : Word [.assign])
      (value : Term)
  | array (elements : List Term) (close : Word [.rightBracket])
  | new (name : Word [.identifier]) (arguments : List Term) (close : Word [.rightParen])

/-- The declaration of a variable or a field as it is written. -/
structure Binding where
  name : Word [.identifier]
  type : Word [.identifier]
  initializer : Option Term

mutual

/-- A declaration as it is written. The fields of a class stand before its
methods. -/
inductive Declaration where
  | variable (binding : Binding)
  | function (function : Routine)
  | classDef (name : Word [.identifier]) (superclass : Option (Word [.identifier]))
      (fields : List Binding) (methods : List Routine)
  | statement (statement : Statement)

inductive Routine where
  | mk (name : Word [.identifier]) (params : List (Word [.identifier] × Word [.identifier]))
      (body : List Declaration)

/-- A statement as it is written. What stands in a branch or a loop is a
statement and no declaration. -/
inductive Statement where
  | expression (e : Term)
  | block (body : List Declaration)
  | branch (condition : Term) (thenBranch : Statement)
  | choice (condition : Term) (thenBranch elseBranch : Statement)
  | loop (condition : Term) (body : Statement)
  | count (declared : Bool) (iterator : Word [.identifier]) (start condition increment : Term)
      (body : Statement)
  | ret (word : Word [.returnWord]) (value : Option Term)

end

/-! ## Syntax trees -/

def describe (e : Expr) : String :=
  match e.describe .none with
  | .ok text => text
  | .error _ => ""

mutual

/-- The expression that a term stands for. An index is named by its
description, and a new instance is a call of its class. -/
def Term.expr : Term → Expr
  | .literal word => .literal word.token.literal word.token
  | .variable name => .variable name.token.lexeme name.token
  | .this word => .this word.token
  | .super word method => .super method.token.lexeme word.token
  | .unary operator right => .unary operator.token right.expr
  | .binary _ left operator right => .binary left.expr operator.token right.expr
  | .call callee arguments close => .call callee.expr (Term.exprs arguments) close.token
  | .property object name => .get object.expr name.token.lexeme name.token
  | .index object place close => .get object.expr (describe place.expr) close.token
  | .setVariable name equals value =>
      .set (.variable name.token.lexeme name.token) name.token.lexeme value.expr equals.token
  | .setProperty object name equals value =>
      .set object.expr name.token.lexeme value.expr equals.token
  | .setIndex object place _ equals value =>
      .set object.expr (describe place.expr) value.expr equals.token
  | .array elements close =>
      .literal (.list (.constant ((Term.exprs elements).map .code))) close.token
  | .new name arguments close =>
      .call (.variable name.token.lexeme name.token) (Term.exprs arguments) close.token

def Term.exprs : List Term → List Expr
  | [] => []
  | e :: rest => e.expr :: Term.exprs rest

end

mutual

/-- The expression that a term stands for has a description. -/
theorem Term.described : (e : Term) → e.expr.Described
  | .literal word => Expr.described_of_parts ⟨word.described, word.described⟩
  | .variable name => Expr.described_of_parts name.described
  | .this word => Expr.described_of_parts word.described
  | .super word _ => Expr.described_of_parts word.described
  | .unary operator right => Expr.described_of_parts ⟨operator.described, right.described⟩
  | .binary _ left operator right =>
      Expr.described_of_parts ⟨left.described, operator.described, right.described⟩
  | .call callee arguments close =>
      Expr.described_of_parts
        ⟨callee.described, Term.described_exprs arguments, close.described⟩
  | .property object name => Expr.described_of_parts ⟨object.described, name.described⟩
  | .index object _ close => Expr.described_of_parts ⟨object.described, close.described⟩
  | .setVariable name equals value =>
      Expr.described_of_parts
        ⟨Expr.described_of_parts name.described, value.described, equals.described⟩
  | .setProperty object _ equals value =>
      Expr.described_of_parts ⟨object.described, value.described, equals.described⟩
  | .setIndex object _ _ equals value =>
      Expr.described_of_parts ⟨object.described, value.described, equals.described⟩
  | .array elements close =>
      Expr.described_of_parts
        ⟨Value.described_list_code (Term.described_exprs elements), close.described⟩
  | .new name arguments close =>
      Expr.described_of_parts
        ⟨Expr.described_of_parts name.described, Term.described_exprs arguments,
          close.described⟩

/-- All terms of a list have descriptions, by induction over terms. -/
theorem Term.described_exprs : (es : List Term) → ∀ e ∈ Term.exprs es, e.Described
  | [] => fun _ h => absurd h List.not_mem_nil
  | first :: rest => fun e h => by
      rcases List.mem_cons.mp h with rfl | hRest
      · exact first.described
      · exact Term.described_exprs rest e hRest

end

def Binding.decl (binding : Binding) : VarDecl :=
  ⟨binding.name.token.lexeme, binding.type.token.lexeme, binding.initializer.map Term.expr,
    binding.name.token⟩

/-- The statements of which the body of a counting loop consists. -/
def bodyOf : Stmt → List Stmt
  | .block statements => statements
  | other => [other]

mutual

def Declaration.stmt : Declaration → Stmt
  | .variable binding => .varDecl binding.decl
  | .function function => .funDecl function.decl
  | .classDef name superclass fields methods =>
      .classDecl name.token.lexeme (superclass.map (·.token.lexeme)) (fields.map Binding.decl)
        (Routine.decls methods) name.token
  | .statement statement => statement.stmt

def Declaration.stmts : List Declaration → List Stmt
  | [] => []
  | declaration :: rest => declaration.stmt :: Declaration.stmts rest

def Routine.decl : Routine → FunDecl
  | .mk name params body =>
      ⟨name.token.lexeme, params.map fun param => (param.1.token.lexeme, param.2.token.lexeme),
        Declaration.stmts body, name.token⟩

def Routine.decls : List Routine → List FunDecl
  | [] => []
  | function :: rest => function.decl :: Routine.decls rest

/-- The statement that a written one stands for. A counting loop becomes a block
that declares the iterator and a loop with the step at the end of its body. -/
def Statement.stmt : Statement → Stmt
  | .expression e => .expression e.expr
  | .block body => .block (Declaration.stmts body)
  | .branch condition thenBranch => .branch condition.expr thenBranch.stmt none
  | .choice condition thenBranch elseBranch =>
      .branch condition.expr thenBranch.stmt (some elseBranch.stmt)
  | .loop condition body => .loop condition.expr body.stmt
  | .count _ iterator start condition increment body =>
      .block [
        .varDecl ⟨iterator.token.lexeme, "integer", some start.expr,
          ⟨.identifier, iterator.token.lexeme, .nothing, 0, 0⟩⟩,
        .loop condition.expr
          (.block (bodyOf body.stmt ++ [.expression increment.expr]))]
  | .ret word value => .ret (value.map Term.expr) word.token

end

/-! ## Printed forms -/

/-- A piece of a printed form: a token that the syntax tree keeps, or any token
of a kind. -/
inductive Piece where
  | word (token : Token)
  | mark (kind : TokenKind)

def Piece.kind : Piece → TokenKind
  | .word token => token.kind
  | .mark kind => kind

def Piece.Matches : Piece → Token → Prop
  | .word own, token => token = own
  | .mark kind, token => token.kind = kind

def Piece.token : Piece → Token
  | .word token => token
  | .mark kind => ⟨kind, "", .nothing, 1, 1⟩

/-- The tokens are a printed form. Those that the syntax tree does not keep may
have any place in the source. -/
abbrev Printed : List Piece → List Token → Prop := List.Forall₂ Piece.Matches

section

variable {pieces others : List Piece} {tokens : List Token}

theorem printed_nil (h : Printed [] tokens) : tokens = [] :=
  List.forall₂_nil_left_iff.mp h

theorem printed_word {token : Token} (h : Printed (.word token :: pieces) tokens) :
    ∃ rest, tokens = token :: rest ∧ Printed pieces rest := by
  obtain ⟨first, rest, hFirst, hRest, hTokens⟩ := List.forall₂_cons_left_iff.mp h
  cases (show first = token from hFirst)
  exact ⟨rest, hTokens, hRest⟩

/-- A piece that the tree does not keep is any token of its kind. -/
theorem printed_mark {kind : TokenKind} (h : Printed (.mark kind :: pieces) tokens) :
    ∃ token rest, tokens = token :: rest ∧ token.kind ∈ [kind] ∧ Printed pieces rest := by
  obtain ⟨first, rest, hFirst, hRest, hTokens⟩ := List.forall₂_cons_left_iff.mp h
  exact ⟨first, rest, hTokens, List.mem_singleton.mpr hFirst, hRest⟩

/-- Every printed form has tokens. -/
theorem printed_tokens (pieces : List Piece) : Printed pieces (pieces.map Piece.token) := by
  induction pieces with
  | nil => exact .nil
  | cons piece pieces ih => cases piece <;> exact .cons rfl ih

/-- The kinds of the tokens are those of the pieces. -/
theorem printed_kinds (h : Printed pieces tokens) :
    tokens.map Token.kind = pieces.map Piece.kind := by
  induction h with
  | nil => rfl
  | @cons piece token _ _ hToken _ ih =>
      have hKind : token.kind = piece.kind := by
        cases piece with
        | word own => exact congrArg Token.kind hToken
        | mark kind => exact hToken
      rw [List.map_cons, List.map_cons, hKind, ih]

/-- A printed form of two parts is cut between them. -/
theorem printed_append (h : Printed (pieces ++ others) tokens) :
    ∃ front back, tokens = front ++ back ∧ Printed pieces front ∧ Printed others back := by
  induction pieces generalizing tokens with
  | nil => exact ⟨[], tokens, rfl, .nil, h⟩
  | cons piece pieces ih =>
      obtain ⟨first, rest, hFirst, hRest, rfl⟩ := List.forall₂_cons_left_iff.mp h
      obtain ⟨front, back, rfl, hFront, hBack⟩ := ih hRest
      exact ⟨first :: front, back, rfl, .cons hFirst hFront, hBack⟩

end

/-- Parentheses around an expression that binds more loosely than its place
requires. -/
def grouped (required own : Level) (pieces : List Piece) : List Piece :=
  if own.rank < required.rank then .mark .leftParen :: pieces ++ [.mark .rightParen] else pieces

def separated : List (List Piece) → List Piece
  | [] => []
  | [pieces] => pieces
  | pieces :: rest => pieces ++ .mark .comma :: separated rest

/-- The first of several forms stands in front. -/
theorem printed_separated {pieces : List Piece} {others : List (List Piece)} {tokens : List Token}
    (h : Printed (separated (pieces :: others)) tokens) :
    ∃ front back, tokens = front ++ back ∧ Printed pieces front := by
  cases others with
  | nil => exact ⟨tokens, [], (List.append_nil _).symm, h⟩
  | cons second others =>
      obtain ⟨front, back, hTokens, hFront, -⟩ := printed_append h
      exact ⟨front, back, hTokens, hFront⟩

def Term.level : Term → Level
  | .setVariable .. | .setProperty .. | .setIndex .. => .assignment
  | .binary level .. => level
  | .unary .. => .sign
  | .call .. | .property .. | .index .. => .call
  | .literal _ | .variable _ | .this _ | .super .. | .array .. | .new .. => .primary

mutual

/-- The printed form of a term without parentheses around it. -/
def Term.body : Term → List Piece
  | .literal word => [.word word.token]
  | .variable name => [.word name.token]
  | .this word => [.word word.token]
  | .super word method => [.word word.token, .mark .dot, .word method.token]
  | .unary operator right => .word operator.token :: grouped .sign right.level right.body
  | .binary level left operator right =>
      grouped level left.level left.body ++
        .word operator.token :: grouped level.next right.level right.body
  | .call callee arguments close =>
      grouped .call callee.level callee.body ++
        .mark .leftParen :: separated (Term.bodies arguments) ++ [.word close.token]
  | .property object name =>
      grouped .call object.level object.body ++ [.mark .dot, .word name.token]
  | .index object place close =>
      grouped .call object.level object.body ++
        .mark .leftBracket :: place.body ++ [.word close.token]
  | .setVariable name equals value =>
      .word name.token :: .word equals.token :: value.body
  | .setProperty object name equals value =>
      grouped .call object.level object.body ++
        .mark .dot :: .word name.token :: .word equals.token :: value.body
  | .setIndex object place close equals value =>
      grouped .call object.level object.body ++
        .mark .leftBracket :: place.body ++ .word close.token :: .word equals.token :: value.body
  | .array elements close =>
      .mark .leftBracket :: separated (Term.bodies elements) ++ [.word close.token]
  | .new name arguments close =>
      .mark .newWord :: .word name.token ::
        .mark .leftParen :: separated (Term.bodies arguments) ++ [.word close.token]

def Term.bodies : List Term → List (List Piece)
  | [] => []
  | e :: rest => e.body :: Term.bodies rest

end

/-- The printed form of a term at a place that requires a level. -/
def Term.print (required : Level) (e : Term) : List Piece :=
  grouped required e.level e.body

/-- The printed form of a binding after its first word. -/
def Binding.print (binding : Binding) : List Piece :=
  .word binding.name.token :: .mark .arrow :: .word binding.type.token ::
    match binding.initializer with
    | some e => .mark .assign :: e.print .assignment
    | none => []

def printParam (param : Word [.identifier] × Word [.identifier]) : List Piece :=
  [.word param.1.token, .mark .arrow, .word param.2.token]

def printSuperclass : Option (Word [.identifier]) → List Piece
  | some name => [.mark .extendsWord, .word name.token]
  | none => []

def Binding.printAll : List Binding → List Piece
  | [] => []
  | field :: rest => .mark .varWord :: field.print ++ Binding.printAll rest

mutual

def Declaration.print : Declaration → List Piece
  | .variable binding => .mark .varWord :: binding.print
  | .function function => .mark .funWord :: function.print
  | .classDef name superclass fields methods =>
      .mark .classWord :: .word name.token :: printSuperclass superclass ++
        .mark .leftBrace :: Binding.printAll fields ++ Routine.printAll methods ++
          [.mark .rightBrace]
  | .statement statement => statement.print

def Declaration.printAll : List Declaration → List Piece
  | [] => []
  | declaration :: rest => declaration.print ++ Declaration.printAll rest

/-- The printed form of a function after its first word. -/
def Routine.print : Routine → List Piece
  | .mk name params body =>
      .word name.token :: .mark .leftParen :: separated (params.map printParam) ++
        .mark .rightParen :: .mark .leftBrace :: Declaration.printAll body ++ [.mark .rightBrace]

def Routine.printAll : List Routine → List Piece
  | [] => []
  | function :: rest => .mark .funWord :: function.print ++ Routine.printAll rest

/-- The printed form of a statement. The word that declares the iterator of a
counting loop may be missing. -/
def Statement.print : Statement → List Piece
  | .expression e => e.print .assignment
  | .block body => .mark .leftBrace :: Declaration.printAll body ++ [.mark .rightBrace]
  | .branch condition thenBranch =>
      .mark .ifWord :: .mark .leftParen :: condition.print .assignment ++
        .mark .rightParen :: thenBranch.print
  | .choice condition thenBranch elseBranch =>
      .mark .ifWord :: .mark .leftParen :: condition.print .assignment ++
        .mark .rightParen :: thenBranch.print ++ .mark .elseWord :: elseBranch.print
  | .loop condition body =>
      .mark .whileWord :: .mark .leftParen :: condition.print .assignment ++
        .mark .rightParen :: body.print
  | .count declared iterator start condition increment body =>
      .mark .forWord :: .mark .leftParen :: (if declared then [.mark .varWord] else []) ++
        .word iterator.token :: .mark .assign :: start.print .assignment ++
        .mark .semicolon :: condition.print .assignment ++
        .mark .semicolon :: increment.print .assignment ++ .mark .rightParen :: body.print
  | .ret word (some e) => .word word.token :: e.print .assignment
  | .ret word none => [.word word.token]

end

/-! ## Trees whose printed form is unambiguous -/

/-- Does a statement end in a branch without an alternative? -/
def Statement.dangles : Statement → Bool
  | .branch .. => true
  | .choice _ _ elseBranch => elseBranch.dangles
  | .loop _ body => body.dangles
  | .count _ _ _ _ _ body => body.dangles
  | .expression _ | .block _ | .ret .. => false

/-- The kind of the first token of the declarations, or of the one behind them
if there are none. -/
def firstKind (declarations : List Declaration) (behind : TokenKind) : TokenKind :=
  ((Declaration.printAll declarations).head?.map Piece.kind).getD behind

mutual

/-- A statement before a token of this kind: a branch with an alternative does
not end in one without, a return without a value stands directly before a
closing brace, and the same holds within. -/
def Statement.Fits (behind : TokenKind) : Statement → Prop
  | .expression _ => True
  | .block body => Declaration.FitAll .rightBrace body
  | .branch _ thenBranch => thenBranch.Fits behind
  | .choice _ thenBranch elseBranch =>
      thenBranch.dangles = false ∧ thenBranch.Fits .elseWord ∧ elseBranch.Fits behind
  | .loop _ body => body.Fits behind
  | .count _ _ _ _ _ body => body.Fits behind
  | .ret _ (some _) => True
  | .ret _ none => behind = .rightBrace

def Declaration.Fits (behind : TokenKind) : Declaration → Prop
  | .variable _ => True
  | .function function => function.Fits
  | .classDef _ _ _ methods => Routine.FitAll methods
  | .statement statement => statement.Fits behind

/-- Declarations before a token of this kind. None but the first starts with a
token that could continue the one before it. -/
def Declaration.FitAll (behind : TokenKind) : List Declaration → Prop
  | [] => True
  | declaration :: rest =>
      declaration.Fits (firstKind rest behind) ∧
      firstKind rest behind ∉ [.leftParen, .leftBracket, .minus] ∧
      Declaration.FitAll behind rest

def Routine.Fits : Routine → Prop
  | .mk _ _ body => Declaration.FitAll .rightBrace body

def Routine.FitAll : List Routine → Prop
  | [] => True
  | function :: rest => function.Fits ∧ Routine.FitAll rest

end

end Mus.Written
