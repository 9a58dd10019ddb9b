import Mus.Proofs.Syntax.Written
import Mus.Syntax.Parser.Statement

/-! The grammar of the language. Each nonterminal is a relation between the tokens
that it yields and the tree that stands for them, with one constructor for each
production. The levels of expressions are stratified: an operand of a binary
operator is of the next tighter level on the right and of the same one on the left.
Nothing here refers to the order in which the parser tries its rules. -/
namespace Mus.Grammar

open Written (Level bodyOf)

/-- A terminal: a token of one of these kinds. -/
structure Terminal (kinds : List TokenKind) where
  token : Token
  kind_mem : token.kind ∈ kinds

/-! ## Expressions -/

mutual

/-- The tokens are an expression of the level, with this tree. An index stands in
the tree by its description, and a new instance is a call of its class. -/
inductive Expression : Level → List Token → Expr → Prop where
  | literal (word : Terminal [.integer, .string, .boolean]) :
      Expression .primary [word.token] (.literal word.token.literal word.token)
  | this (word : Terminal [.thisWord]) : Expression .primary [word.token] (.this word.token)
  | super (word : Terminal [.superWord]) (dot : Terminal [.dot])
      (method : Terminal [.identifier]) :
      Expression .primary [word.token, dot.token, method.token]
        (.super method.token.lexeme word.token)
  | variable (name : Terminal [.identifier]) :
      Expression .primary [name.token] (.variable name.token.lexeme name.token)
  | group (opening : Terminal [.leftParen]) {tokens : List Token} {e : Expr}
      (inner : Expression .assignment tokens e) (closing : Terminal [.rightParen]) :
      Expression .primary (opening.token :: (tokens ++ [closing.token])) e
  | array (opening : Terminal [.leftBracket]) {tokens : List Token} {elements : List Expr}
      (inner : Expressions tokens elements) (closing : Terminal [.rightBracket]) :
      Expression .primary (opening.token :: (tokens ++ [closing.token]))
        (.literal (.list (.constant (elements.map .code))) closing.token)
  | new (word : Terminal [.newWord]) (name : Terminal [.identifier])
      (opening : Terminal [.leftParen]) {tokens : List Token} {arguments : List Expr}
      (inner : Expressions tokens arguments) (closing : Terminal [.rightParen]) :
      Expression .primary
        (word.token :: name.token :: opening.token :: (tokens ++ [closing.token]))
        (.call (.variable name.token.lexeme name.token) arguments closing.token)
  | call {front tokens : List Token} {callee : Expr} {arguments : List Expr}
      (target : Expression .call front callee) (opening : Terminal [.leftParen])
      (inner : Expressions tokens arguments) (closing : Terminal [.rightParen]) :
      Expression .call (front ++ opening.token :: (tokens ++ [closing.token]))
        (.call callee arguments closing.token)
  | property {front : List Token} {object : Expr} (target : Expression .call front object)
      (dot : Terminal [.dot]) (name : Terminal [.identifier]) :
      Expression .call (front ++ [dot.token, name.token])
        (.get object name.token.lexeme name.token)
  | index {front tokens : List Token} {object place : Expr} {name : String}
      (target : Expression .call front object) (opening : Terminal [.leftBracket])
      (inner : Expression .assignment tokens place) (closing : Terminal [.rightBracket])
      (described : place.describe .none = .ok name) :
      Expression .call (front ++ opening.token :: (tokens ++ [closing.token]))
        (.get object name closing.token)
  | unary (operator : Terminal [.not, .minus]) {tokens : List Token} {right : Expr}
      (operand : Expression .sign tokens right) :
      Expression .sign (operator.token :: tokens) (.unary operator.token right)
  | binary {level : Level} {front back : List Token} {left right : Expr}
      (first : Expression level front left) (operator : Terminal level.operators)
      (second : Expression level.next back right) :
      Expression level (front ++ operator.token :: back) (.binary left operator.token right)
  | assign {front back : List Token} {object value : Expr} {name : String}
      (target : Target front object name) (equals : Terminal [.assign])
      (source : Expression .assignment back value) :
      Expression .assignment (front ++ equals.token :: back) (.set object name value equals.token)
  | tighter {level : Level} {tokens : List Token} {e : Expr}
      (inner : Expression level.next tokens e) : Expression level tokens e

/-- The tokens are what can be assigned to: a variable, a property or an index,
with any number of parentheses around it. The tree keeps the object and the name
that is set on it; for a variable these are the variable and its own name. -/
inductive Target : List Token → Expr → String → Prop where
  | variable (name : Terminal [.identifier]) :
      Target [name.token] (.variable name.token.lexeme name.token) name.token.lexeme
  | property {front : List Token} {object : Expr} (target : Expression .call front object)
      (dot : Terminal [.dot]) (name : Terminal [.identifier]) :
      Target (front ++ [dot.token, name.token]) object name.token.lexeme
  | index {front tokens : List Token} {object place : Expr} {name : String}
      (target : Expression .call front object) (opening : Terminal [.leftBracket])
      (inner : Expression .assignment tokens place) (closing : Terminal [.rightBracket])
      (described : place.describe .none = .ok name) :
      Target (front ++ opening.token :: (tokens ++ [closing.token])) object name
  | group (opening : Terminal [.leftParen]) {tokens : List Token} {object : Expr} {name : String}
      (inner : Target tokens object name) (closing : Terminal [.rightParen]) :
      Target (opening.token :: (tokens ++ [closing.token])) object name

inductive Expressions : List Token → List Expr → Prop where
  | none : Expressions [] []
  | one {tokens : List Token} {e : Expr} (only : Expression .assignment tokens e) :
      Expressions tokens [e]
  | more {tokens others : List Token} {e next : Expr} {rest : List Expr}
      (first : Expression .assignment tokens e) (comma : Terminal [.comma])
      (following : Expressions others (next :: rest)) :
      Expressions (tokens ++ comma.token :: others) (e :: next :: rest)

end

/-! ## Declarations and statements -/

/-- The tokens declare a variable or a field, after the first word. -/
inductive Binding : List Token → VarDecl → Prop where
  | bare (name : Terminal [.identifier]) (arrow : Terminal [.arrow])
      (type : Terminal [.identifier]) :
      Binding [name.token, arrow.token, type.token]
        ⟨name.token.lexeme, type.token.lexeme, none, name.token⟩
  | initialized (name : Terminal [.identifier]) (arrow : Terminal [.arrow])
      (type : Terminal [.identifier]) (equals : Terminal [.assign]) {tokens : List Token}
      {e : Expr} (initializer : Expression .assignment tokens e) :
      Binding (name.token :: arrow.token :: type.token :: equals.token :: tokens)
        ⟨name.token.lexeme, type.token.lexeme, some e, name.token⟩

inductive Parameters : List Token → Params → Prop where
  | none : Parameters [] []
  | one (name : Terminal [.identifier]) (arrow : Terminal [.arrow])
      (type : Terminal [.identifier]) :
      Parameters [name.token, arrow.token, type.token] [(name.token.lexeme, type.token.lexeme)]
  | more (name : Terminal [.identifier]) (arrow : Terminal [.arrow])
      (type : Terminal [.identifier]) (comma : Terminal [.comma]) {tokens : List Token}
      {next : String × String} {rest : Params} (following : Parameters tokens (next :: rest)) :
      Parameters (name.token :: arrow.token :: type.token :: comma.token :: tokens)
        ((name.token.lexeme, type.token.lexeme) :: next :: rest)

inductive Superclass : List Token → Option String → Prop where
  | none : Superclass [] none
  | named (word : Terminal [.extendsWord]) (name : Terminal [.identifier]) :
      Superclass [word.token, name.token] (some name.token.lexeme)

inductive Optional (kind : TokenKind) : List Token → Prop where
  | missing : Optional kind []
  | present (word : Terminal [kind]) : Optional kind [word.token]

mutual

/-- The tokens are a declaration or a statement. The mark says whether a placeholder
stands in the tree. A placeholder stands for no tokens: those of a faulty declaration
are given up. -/
inductive Declaration : Bool → List Token → Stmt → Prop where
  | classDef (word : Terminal [.classWord]) (name : Terminal [.identifier]) {faulty : Bool}
      {parent tokens : List Token} {superclass : Option String} {fields : List VarDecl}
      {methods : List FunDecl} (extended : Superclass parent superclass)
      (opening : Terminal [.leftBrace]) (members : Members faulty tokens fields methods)
      (closing : Terminal [.rightBrace]) :
      Declaration faulty
        (word.token :: name.token :: (parent ++ opening.token :: (tokens ++ [closing.token])))
        (.classDecl name.token.lexeme superclass fields methods name.token)
  | function (word : Terminal [.funWord]) {faulty : Bool} {tokens : List Token} {decl : FunDecl}
      (routine : Routine faulty tokens decl) :
      Declaration faulty (word.token :: tokens) (.funDecl decl)
  | variable (word : Terminal [.varWord]) {tokens : List Token} {decl : VarDecl}
      (binding : Binding tokens decl) :
      Declaration false (word.token :: tokens) (.varDecl decl)
  | statement {faulty : Bool} {tokens : List Token} {stmt : Stmt}
      (inner : Statement faulty tokens stmt) : Declaration faulty tokens stmt
  | placeholder (error : SyntaxError) : Declaration true [] (Parse.placeholder error)

inductive Declarations : Bool → List Token → List Stmt → Prop where
  | none : Declarations false [] []
  | more {faulty others : Bool} {front back : List Token} {stmt : Stmt} {rest : List Stmt}
      (first : Declaration faulty front stmt) (following : Declarations others back rest) :
      Declarations (faulty || others) (front ++ back) (stmt :: rest)

/-- The tokens are a function or a method, after the first word. -/
inductive Routine : Bool → List Token → FunDecl → Prop where
  | intro (name : Terminal [.identifier]) (opening : Terminal [.leftParen]) {faulty : Bool}
      {list tokens : List Token} {params : Params} {body : List Stmt}
      (parameters : Parameters list params) (closing : Terminal [.rightParen])
      (brace : Terminal [.leftBrace]) (inner : Declarations faulty tokens body)
      (braceEnd : Terminal [.rightBrace]) :
      Routine faulty
        (name.token :: opening.token :: (list ++ closing.token :: brace.token ::
          (tokens ++ [braceEnd.token])))
        ⟨name.token.lexeme, params, body, name.token⟩

/-- The tokens are fields and methods in any order. The tree keeps the order of the
fields and that of the methods. -/
inductive Members : Bool → List Token → List VarDecl → List FunDecl → Prop where
  | none : Members false [] [] []
  | field (word : Terminal [.varWord]) {faulty : Bool} {front back : List Token} {decl : VarDecl}
      {fields : List VarDecl} {methods : List FunDecl} (first : Binding front decl)
      (following : Members faulty back fields methods) :
      Members faulty (word.token :: (front ++ back)) (decl :: fields) methods
  | method (word : Terminal [.funWord]) {faulty others : Bool} {front back : List Token}
      {decl : FunDecl} {fields : List VarDecl} {methods : List FunDecl}
      (first : Routine faulty front decl) (following : Members others back fields methods) :
      Members (faulty || others) (word.token :: (front ++ back)) fields (decl :: methods)

/-- The tokens are a statement. A counting loop stands in the tree as a block that
declares the iterator and repeats the body with the step at its end. -/
inductive Statement : Bool → List Token → Stmt → Prop where
  | expression {tokens : List Token} {e : Expr} (inner : Expression .assignment tokens e) :
      Statement false tokens (.expression e)
  | block (opening : Terminal [.leftBrace]) {faulty : Bool} {tokens : List Token}
      {body : List Stmt} (inner : Declarations faulty tokens body)
      (closing : Terminal [.rightBrace]) :
      Statement faulty (opening.token :: (tokens ++ [closing.token])) (.block body)
  | branch (word : Terminal [.ifWord]) (opening : Terminal [.leftParen]) {faulty : Bool}
      {tokens front : List Token} {condition : Expr} {thenBranch : Stmt}
      (test : Expression .assignment tokens condition) (closing : Terminal [.rightParen])
      (first : Statement faulty front thenBranch) :
      Statement faulty (word.token :: opening.token :: (tokens ++ closing.token :: front))
        (.branch condition thenBranch none)
  | choice (word : Terminal [.ifWord]) (opening : Terminal [.leftParen]) {faulty others : Bool}
      {tokens front back : List Token} {condition : Expr} {thenBranch elseBranch : Stmt}
      (test : Expression .assignment tokens condition) (closing : Terminal [.rightParen])
      (first : Statement faulty front thenBranch) (otherwise : Terminal [.elseWord])
      (second : Statement others back elseBranch) :
      Statement (faulty || others)
        (word.token :: opening.token ::
          (tokens ++ closing.token :: (front ++ otherwise.token :: back)))
        (.branch condition thenBranch (some elseBranch))
  | loop (word : Terminal [.whileWord]) (opening : Terminal [.leftParen]) {faulty : Bool}
      {tokens inner : List Token} {condition : Expr} {body : Stmt}
      (test : Expression .assignment tokens condition) (closing : Terminal [.rightParen])
      (repeated : Statement faulty inner body) :
      Statement faulty (word.token :: opening.token :: (tokens ++ closing.token :: inner))
        (.loop condition body)
  | count (word : Terminal [.forWord]) (opening : Terminal [.leftParen]) {faulty : Bool}
      {declared first second third inner : List Token} {start condition increment : Expr}
      {body : Stmt} (introduced : Optional .varWord declared) (iterator : Terminal [.identifier])
      (equals : Terminal [.assign]) (initial : Expression .assignment first start)
      (semicolon : Terminal [.semicolon]) (test : Expression .assignment second condition)
      (semicolonNext : Terminal [.semicolon]) (step : Expression .assignment third increment)
      (closing : Terminal [.rightParen]) (repeated : Statement faulty inner body) :
      Statement faulty
        (word.token :: opening.token :: (declared ++ iterator.token :: equals.token ::
          (first ++ semicolon.token :: (second ++ semicolonNext.token ::
            (third ++ closing.token :: inner)))))
        (.block [
          .varDecl ⟨iterator.token.lexeme, "integer", some start,
            ⟨.identifier, iterator.token.lexeme, .nothing, 0, 0⟩⟩,
          .loop condition (.block (bodyOf body ++ [.expression increment]))])
  | ret (word : Terminal [.returnWord]) : Statement false [word.token] (.ret none word.token)
  | retValue (word : Terminal [.returnWord]) {tokens : List Token} {e : Expr}
      (value : Expression .assignment tokens e) :
      Statement false (word.token :: tokens) (.ret (some e) word.token)

end

/-! ## What can be assigned to -/

/-- The object and the name that an assignment to the expression sets. -/
def assigned? : Expr → Option (Expr × String)
  | .variable name token => some (.variable name token, name)
  | .get object name _ => some (object, name)
  | _ => none

/-- An expression that can be assigned to is a variable, a property or an index, with
parentheses at most. -/
theorem Expression.target {level : Level} {tokens : List Token} {e object : Expr} {name : String} :
    Expression level tokens e → assigned? e = some (object, name) → Target tokens object name
  | .variable word, h => by
      cases h
      exact .variable word
  | .property target dot word, h => by
      cases h
      exact .property target dot word
  | .index target opening inner closing described, h => by
      cases h
      exact .index target opening inner closing described
  | .group opening inner closing, h => .group opening (inner.target h) closing
  | .tighter inner, h => inner.target h
  | .literal _, h => nomatch h
  | .this _, h => nomatch h
  | .super .., h => nomatch h
  | .array .., h => nomatch h
  | .new .., h => nomatch h
  | .call .., h => nomatch h
  | .unary .., h => nomatch h
  | .binary .., h => nomatch h
  | .assign .., h => nomatch h

/-! ## Descriptions -/

mutual

/-- An expression has a description if the tokens that it is derived from have one. -/
theorem Expression.described {level : Level} {tokens : List Token} {e : Expr} :
    Expression level tokens e → (∀ token ∈ tokens, token.Described) → e.Described
  | .literal word, h => Expr.described_of_parts ⟨h word.token (by simp), h word.token (by simp)⟩
  | .this word, h => Expr.described_of_parts (h word.token (by simp))
  | .super word dot method, h => Expr.described_of_parts (h word.token (by simp))
  | .variable name, h => Expr.described_of_parts (h name.token (by simp))
  | .group opening inner closing, h => inner.described fun token hMem => h token (by simp [hMem])
  | .array opening inner closing, h =>
      have hInner := inner.described fun token hMem => h token (by simp [hMem])
      Expr.described_of_parts ⟨Value.described_list_code hInner, h closing.token (by simp)⟩
  | .new word name opening inner closing, h =>
      have hInner := inner.described fun token hMem => h token (by simp [hMem])
      have hName : (Expr.variable name.token.lexeme name.token).Described :=
        Expr.described_of_parts (h name.token (by simp))
      Expr.described_of_parts ⟨hName, hInner, h closing.token (by simp)⟩
  | .call target opening inner closing, h =>
      have hTarget := target.described fun token hMem => h token (by simp [hMem])
      have hInner := inner.described fun token hMem => h token (by simp [hMem])
      Expr.described_of_parts ⟨hTarget, hInner, h closing.token (by simp)⟩
  | .property target dot name, h =>
      have hTarget := target.described fun token hMem => h token (by simp [hMem])
      Expr.described_of_parts ⟨hTarget, h name.token (by simp)⟩
  | .index target opening inner closing _, h =>
      have hTarget := target.described fun token hMem => h token (by simp [hMem])
      Expr.described_of_parts ⟨hTarget, h closing.token (by simp)⟩
  | .unary operator operand, h =>
      have hOperand := operand.described fun token hMem => h token (by simp [hMem])
      Expr.described_of_parts ⟨h operator.token (by simp), hOperand⟩
  | .binary first operator second, h =>
      have hFirst := first.described fun token hMem => h token (by simp [hMem])
      have hSecond := second.described fun token hMem => h token (by simp [hMem])
      Expr.described_of_parts ⟨hFirst, h operator.token (by simp), hSecond⟩
  | .assign target equals source, h =>
      have hTarget := target.described fun token hMem => h token (by simp [hMem])
      have hSource := source.described fun token hMem => h token (by simp [hMem])
      Expr.described_of_parts ⟨hTarget, hSource, h equals.token (by simp)⟩
  | .tighter inner, h => inner.described h

/-- What can be assigned to is described if its tokens are. -/
theorem Target.described {tokens : List Token} {object : Expr} {name : String} :
    Target tokens object name → (∀ token ∈ tokens, token.Described) → object.Described
  | .variable word, h => Expr.described_of_parts (h word.token (by simp))
  | .property target dot word, h => target.described fun token hMem => h token (by simp [hMem])
  | .index target opening inner closing _, h =>
      target.described fun token hMem => h token (by simp [hMem])
  | .group opening inner closing, h => inner.described fun token hMem => h token (by simp [hMem])

theorem Expressions.described {tokens : List Token} {es : List Expr} :
    Expressions tokens es → (∀ token ∈ tokens, token.Described) → ∀ e ∈ es, e.Described
  | .none, _ => fun _ he => absurd he List.not_mem_nil
  | .one only, h => List.forall_mem_singleton.mpr (only.described h)
  | .more first comma following, h =>
      List.forall_mem_cons.mpr ⟨first.described fun token hMem => h token (by simp [hMem]),
        following.described fun token hMem => h token (by simp [hMem])⟩

end

end Mus.Grammar

/-- The body of a counting loop is followed by the step, whether it is a block or
not. -/
theorem Mus.Parse.countingLoop_eq (iterator : String) (start condition increment : Expr)
    (body : Stmt) :
    countingLoop iterator start condition increment body =
      .block [.varDecl ⟨iterator, "integer", some start, ⟨.identifier, iterator, .nothing, 0, 0⟩⟩,
        .loop condition (.block (Written.bodyOf body ++ [.expression increment]))] := by
  cases body <;> rfl
