import Mus.Proofs.Syntax.Grammar
import Mus.Proofs.Syntax.Steps

/-! What is true of every parser. The parsers call each other in many ways, but they are
put together from few kinds of steps. A property that these steps have, and that is kept
where steps follow each other, is a property of all parsers. So the parsers are gone
through once, here, and each of their properties is an instance of the rules.

The rules are about two parsers that differ in their bounds only. What a parser has to
come to at a cursor is given by a specification, most of which an instance may ignore. -/
namespace Mus.Parse

open Grammar Written

/-! ## First tokens -/

def statementStarts : List TokenKind :=
  [.ifWord, .whileWord, .forWord, .returnWord, .leftBrace] ++ Level.assignment.starts

def declarationStarts : List TokenKind :=
  [.classWord, .funWord, .varWord] ++ statementStarts

/-- The kinds of tokens that end every declaration before them: the end mark, and
those that start a declaration and cannot go on with an expression. -/
def declarationEnds : List TokenKind :=
  .eof :: declarationStarts.filter (· ∉ [.leftParen, .leftBracket, .minus])

/-- No operator ends a declaration. -/
theorem operators_not_end (level : Level) : ∀ kind ∈ declarationEnds, kind ∉ level.operators := by
  cases level <;> decide

/-- The rest of a counting loop, after the word that may declare its iterator. -/
def loopClauses (fuel : Nat) : Parse Stmt := do
  let iterator ← consume .identifier .iteratorName
  let _ ← consume .assign .iteratorAssign
  let start ← assignment fuel
  let _ ← consume .semicolon .forFirstSemicolon
  let condition ← assignment fuel
  let _ ← consume .semicolon .forSecondSemicolon
  let increment ← assignment fuel
  let _ ← consume .rightParen .forClose
  let body ← statement fuel
  return countingLoop iterator.lexeme start condition increment body

/-! ## Specifications -/

section

variable {α : Type}

/-- What a parser is to come to at a cursor. -/
structure Spec (α : Type) where
  /-- The bound on the depth is large enough. -/
  enough : Prop
  /-- A brace has to close the result, so the end mark is no place to stop. -/
  closed : Prop
  /-- The kinds of tokens before which there can be a result. -/
  starts : TokenKind → Prop
  /-- The least number of tokens that are read. -/
  least : Nat
  /-- What a result is derived from: whether a placeholder stands in it, and the tokens
  that were read and not given up. -/
  yields : Bool → List Token → α → Prop

def anything (_ : TokenKind) : Prop := True

/-- A result that is derived from the tokens, without a placeholder in it. -/
def clean (derived : List Token → α → Prop) (faulty : Bool) (tokens : List Token) (value : α) :
    Prop :=
  faulty = false ∧ derived tokens value

end

/-! ## The rules -/

/-- The rules by which all parsers have the property. -/
structure Rules (Holds : {α : Type} → Spec α → Parse α → Parse α → Cursor → Prop) : Prop where
  pure {α : Type} {enough closed : Prop} {yields : Bool → List Token → α → Prop} {value : α}
    {cursor : Cursor} (hValue : yields false [] value) :
    Holds ⟨enough, closed, anything, 0, yields⟩ (pure value) (pure value) cursor
  exhausted {α : Type} {enough closed : Prop} {starts : TokenKind → Prop} {least : Nat}
    {yields : Bool → List Token → α → Prop} {more : Parse α} {cursor : Cursor} (h : ¬enough) :
    Holds ⟨enough, closed, starts, least, yields⟩ (throw .outOfFuel) more cursor
  reject {α : Type} {spec : Spec α} (expectation : Expectation) (token : Token) (cursor : Cursor) :
    Holds spec (reject expectation token) (reject expectation token) cursor
  rejectNext {α : Type} {spec : Spec α} (expectation : Expectation) (cursor : Cursor) :
    Holds spec (peek >>= Parse.reject expectation) (peek >>= Parse.reject expectation) cursor
  weaken {α : Type} {enough enough' closed closed' : Prop} {starts starts' : TokenKind → Prop}
    {least least' : Nat} {yields yields' : Bool → List Token → α → Prop} {parser more : Parse α}
    {cursor : Cursor} (h : Holds ⟨enough, closed, starts, least, yields⟩ parser more cursor)
    (hEnough : enough' → enough) (hClosed : closed → closed')
    (hStarts : ∀ kind, starts kind → starts' kind) (hLeast : least' ≤ least)
    (hYields : ∀ faulty tokens value, yields faulty tokens value → yields' faulty tokens value) :
    Holds ⟨enough', closed', starts', least', yields'⟩ parser more cursor
  -- What the first parser has derived is at hand where the result of the second one is.
  bind {α β : Type} {enough closed : Prop} {starts : TokenKind → Prop} {least : Nat}
    {first : Bool → List Token → α → Prop} {yields : Bool → List Token → β → Prop}
    {parser more : Parse α} {next nextMore : α → Parse β} {cursor : Cursor}
    (hParser : Holds ⟨enough, False, starts, least, first⟩ parser more cursor)
    (hNext : ∀ value faulty read after,
      Holds ⟨enough ∧ least + after.rest.length ≤ cursor.rest.length, closed, anything, 0,
          fun others tokens result => first faulty read value →
            yields (faulty || others) (read ++ tokens) result⟩
        (next value) (nextMore value) after) :
    Holds ⟨enough, closed, starts, least, yields⟩ (parser >>= next) (more >>= nextMore) cursor
  map {α β : Type} {enough closed : Prop} {starts : TokenKind → Prop} {least : Nat}
    {first : Bool → List Token → α → Prop} {yields : Bool → List Token → β → Prop}
    {parser more : Parse α} {wrap : α → β} {cursor : Cursor}
    (hParser : Holds ⟨enough, closed, starts, least, first⟩ parser more cursor)
    (hWrap : ∀ faulty tokens value, first faulty tokens value →
      yields faulty tokens (wrap value)) :
    Holds ⟨enough, closed, starts, least, yields⟩ (do return wrap (← parser))
      (do return wrap (← more)) cursor
  -- A list that is closed by a token has not run into the end mark.
  closing {α β : Type} {enough closed : Prop} {first : Bool → List Token → α → Prop}
    {yields : Bool → List Token → β → Prop} {parser more : Parse α} {kind : TokenKind}
    {expectation : Expectation} {wrap : α → β} {cursor : Cursor}
    (hParser : Holds ⟨enough, True, anything, 0, first⟩ parser more cursor)
    (hWrap : ∀ faulty tokens value (word : Terminal [kind]), first faulty tokens value →
      yields faulty (tokens ++ [word.token]) (wrap value)) :
    Holds ⟨enough, closed, anything, 0, yields⟩
      (do
        let value ← parser
        let _ ← consume kind expectation
        return wrap value)
      (do
        let value ← more
        let _ ← consume kind expectation
        return wrap value) cursor
  consume {α : Type} {enough closed : Prop} {yields : Bool → List Token → α → Prop}
    {kind : TokenKind} {expectation : Expectation} {next nextMore : Token → Parse α}
    {cursor : Cursor}
    (hNext : ∀ (word : Terminal [kind]) before rest recovered,
      Holds ⟨enough ∧ rest.length < cursor.rest.length, closed, anything, 0,
          fun faulty tokens => yields faulty (word.token :: tokens)⟩
        (next word.token) (nextMore word.token) ⟨word.token :: before, rest, recovered⟩) :
    Holds ⟨enough, closed, (· = kind), 1, yields⟩ (consume kind expectation >>= next)
      (consume kind expectation >>= nextMore) cursor
  -- Before the end mark, a parser that can stop there may not go on with a token that ends a
  -- declaration.
  accept {α : Type} {enough closed : Prop} {starts : TokenKind → Prop} {least : Nat}
    {yields : Bool → List Token → α → Prop} {kinds : List TokenKind}
    {next nextMore : Bool → Parse α} {cursor : Cursor} (hStarts : ∀ kind ∈ kinds, starts kind)
    (hLeast : least ≤ 1)
    (hMark : starts .eof → cursor.AtMark → ∀ kind ∈ declarationEnds, kind ∉ kinds)
    (hYes : ∀ (word : Terminal kinds) before rest recovered,
      Holds ⟨enough ∧ rest.length < cursor.rest.length, closed, anything, 0,
          fun faulty tokens => yields faulty (word.token :: tokens)⟩
        (next true) (nextMore true) ⟨word.token :: before, rest, recovered⟩)
    (hNo : Holds ⟨enough, closed, starts, least, yields⟩ (next false) (nextMore false) cursor) :
    Holds ⟨enough, closed, starts, least, yields⟩ (accept kinds >>= next)
      (accept kinds >>= nextMore) cursor
  previous {α : Type} {spec : Spec α} {next nextMore : Token → Parse α} {token : Token}
    {before rest : List Token} {recovered : List SyntaxError}
    (hNext : Holds spec (next token) (nextMore token) ⟨token :: before, rest, recovered⟩) :
    Holds spec (previous >>= next) (previous >>= nextMore) ⟨token :: before, rest, recovered⟩
  check {α : Type} {spec : Spec α} {kind : TokenKind} {next nextMore : Bool → Parse α}
    {cursor : Cursor} (hKind : kind ∉ declarationEnds)
    (hNext : ∀ answer, Holds spec (next answer) (nextMore answer) cursor) :
    Holds spec (check kind >>= next) (check kind >>= nextMore) cursor
  unlessClosed {α : Type} {enough : Prop} {yields : Bool → List Token → α → Prop} {value : α}
    {no noMore : Parse α} {cursor : Cursor} (hValue : yields false [] value)
    (hNo : ¬cursor.AtMark → Holds ⟨enough, True, anything, 0, yields⟩ no noMore cursor) :
    Holds ⟨enough, True, anything, 0, yields⟩
      (do if (← Parse.check .rightBrace) || (← atEnd) then return value else no)
      (do if (← Parse.check .rightBrace) || (← atEnd) then return value else noMore) cursor
  unlessEnded {α : Type} {enough : Prop} {yields : Bool → List Token → α → Prop} {value : α}
    {no noMore : Parse α} {cursor : Cursor} (hValue : yields false [] value)
    (hNo : ¬cursor.AtMark → Holds ⟨enough, True, anything, 0, yields⟩ no noMore cursor) :
    Holds ⟨enough, True, anything, 0, yields⟩ (do if ← atEnd then return value else no)
      (do if ← atEnd then return value else noMore) cursor
  -- An index without a description is the one fault of a list of tokens with an end mark.
  index {α : Type} {enough closed : Prop} {starts : TokenKind → Prop} {least : Nat}
    {yields : Bool → List Token → α → Prop} {parser more : Parse Expr} {kind : TokenKind}
    {expectation : Expectation} {next nextMore : Token → String → Parse α} {cursor : Cursor}
    (hIndex : Holds ⟨enough, False, starts, least, clean (Expression .assignment)⟩ parser more
      cursor)
    (hNext : ∀ index read (word : Terminal [kind]) name before rest recovered,
      Holds ⟨enough ∧ rest.length < cursor.rest.length, closed, anything, 0,
          fun faulty tokens result => Expression .assignment read index →
            index.describe .none = .ok name → yields faulty (read ++ word.token :: tokens) result⟩
        (next word.token name) (nextMore word.token name)
        ⟨word.token :: before, rest, recovered⟩) :
    Holds ⟨enough, closed, anything, 0, yields⟩
      (do
        let index ← parser
        let word ← Parse.consume kind expectation
        let name ← indexName index
        next word name)
      (do
        let index ← more
        let word ← Parse.consume kind expectation
        let name ← indexName index
        nextMore word name) cursor
  recovering {enough : Prop} {starts : TokenKind → Prop} {fuel more : Nat} {cursor : Cursor}
    (hOff : ¬cursor.AtMark)
    (hPlain : Holds ⟨enough, False, starts, 1, Declaration⟩ (plainDeclaration fuel)
      (plainDeclaration more) cursor) :
    Holds ⟨enough, False, anything, 1, Declaration⟩ (declaration (fuel + 1))
      (declaration (more + 1)) cursor

namespace Rules

variable {Holds : {α : Type} → Spec α → Parse α → Parse α → Cursor → Prop}

/-! ## Steps in the middle of a parser -/

section

variable {α β : Type} {enough enough' closed : Prop} {starts : TokenKind → Prop} {least : Nat}
  {first : Bool → List Token → α → Prop} {yields : Bool → List Token → β → Prop}
  {cursor : Cursor} (rules : Rules Holds)

include rules

/-- The parser goes on with another one. -/
theorem andThen {parser more : Parse α} {next nextMore : α → Parse β}
    (hParser : Holds ⟨enough', False, starts, least, first⟩ parser more cursor)
    (hEnough : enough → enough')
    (hNext : ∀ value faulty read after,
      Holds ⟨enough ∧ least + after.rest.length ≤ cursor.rest.length, closed, anything, 0,
          fun others tokens result => first faulty read value →
            yields (faulty || others) (read ++ tokens) result⟩
        (next value) (nextMore value) after) :
    Holds ⟨enough, closed, anything, 0, yields⟩ (parser >>= next) (more >>= nextMore) cursor := by
  have hFirst : Holds ⟨enough, False, starts, least, first⟩ parser more cursor :=
    rules.weaken hParser hEnough id (fun _ h => h) (Nat.le_refl _) fun _ _ _ h => h
  have hBoth : Holds ⟨enough, closed, starts, least, yields⟩ (parser >>= next)
      (more >>= nextMore) cursor := rules.bind hFirst hNext
  exact rules.weaken hBoth id id (fun _ _ => trivial) (Nat.zero_le _) fun _ _ _ h => h

/-- The parser ends with another one. -/
theorem lastly {parser more : Parse β} {last : Bool → List Token → β → Prop}
    (hParser : Holds ⟨enough', False, starts, least, last⟩ parser more cursor)
    (hEnough : enough → enough')
    (hLast : ∀ faulty tokens value, last faulty tokens value → yields faulty tokens value) :
    Holds ⟨enough, closed, anything, 0, yields⟩ parser more cursor :=
  rules.weaken hParser hEnough False.elim (fun _ _ => trivial) (Nat.zero_le _) hLast

/-- The parser ends with another one, the result of which is wrapped up. -/
theorem lastlyMap {parser more : Parse α} {wrap : α → β} {closed' : Prop}
    (hParser : Holds ⟨enough', closed', starts, least, first⟩ parser more cursor)
    (hEnough : enough → enough') (hClosed : closed' → closed)
    (hWrap : ∀ faulty tokens value, first faulty tokens value →
      yields faulty tokens (wrap value)) :
    Holds ⟨enough, closed, anything, 0, yields⟩ (do return wrap (← parser))
      (do return wrap (← more)) cursor := by
  have hMap : Holds ⟨enough', closed', starts, least, yields⟩ (do return wrap (← parser))
      (do return wrap (← more)) cursor := rules.map hParser hWrap
  exact rules.weaken hMap hEnough hClosed (fun _ _ => trivial) (Nat.zero_le _) fun _ _ _ h => h

/-- A word has to follow. -/
theorem word {kind : TokenKind} {expectation : Expectation} {next nextMore : Token → Parse β}
    (hNext : ∀ (word : Terminal [kind]) before rest recovered,
      Holds ⟨enough ∧ rest.length < cursor.rest.length, closed, anything, 0,
          fun faulty tokens => yields faulty (word.token :: tokens)⟩
        (next word.token) (nextMore word.token) ⟨word.token :: before, rest, recovered⟩) :
    Holds ⟨enough, closed, anything, 0, yields⟩ (Parse.consume kind expectation >>= next)
      (Parse.consume kind expectation >>= nextMore) cursor :=
  rules.weaken (rules.consume hNext) id id (fun _ _ => trivial) (Nat.zero_le _) fun _ _ _ h => h

/-- A word may follow. -/
theorem option {kinds : List TokenKind} {yes no yesMore noMore : Parse β}
    (hMark : cursor.AtMark → ∀ kind ∈ declarationEnds, kind ∉ kinds)
    (hYes : ∀ (word : Terminal kinds) before rest recovered,
      Holds ⟨enough ∧ rest.length < cursor.rest.length, closed, anything, 0,
          fun faulty tokens => yields faulty (word.token :: tokens)⟩
        yes yesMore ⟨word.token :: before, rest, recovered⟩)
    (hNo : Holds ⟨enough, closed, anything, 0, yields⟩ no noMore cursor) :
    Holds ⟨enough, closed, anything, 0, yields⟩ (do if ← Parse.accept kinds then yes else no)
      (do if ← Parse.accept kinds then yesMore else noMore) cursor :=
  rules.accept (fun _ _ => trivial) (Nat.zero_le _) (fun _ => hMark) hYes hNo

/-- A word may follow where the parser cannot stop. -/
theorem optionBefore {kinds : List TokenKind} {next nextMore : Bool → Parse β}
    (hEnd : .eof ∉ kinds)
    (hYes : ∀ (word : Terminal kinds) before rest recovered,
      Holds ⟨enough ∧ rest.length < cursor.rest.length, closed, anything, 0,
          fun faulty tokens => yields faulty (word.token :: tokens)⟩
        (next true) (nextMore true) ⟨word.token :: before, rest, recovered⟩)
    (hNo : Holds ⟨enough, closed, (· ≠ .eof), 1, yields⟩ (next false) (nextMore false) cursor) :
    Holds ⟨enough, closed, anything, 0, yields⟩ (Parse.accept kinds >>= next)
      (Parse.accept kinds >>= nextMore) cursor := by
  have hBoth : Holds ⟨enough, closed, (· ≠ .eof), 1, yields⟩ (Parse.accept kinds >>= next)
      (Parse.accept kinds >>= nextMore) cursor :=
    rules.accept (fun _ hKind => ne_of_mem_of_not_mem hKind hEnd) (Nat.le_refl _)
      (fun h => absurd rfl h) hYes hNo
  exact rules.weaken hBoth id id (fun _ _ => trivial) (Nat.zero_le _) fun _ _ _ h => h

/-- One of several ways to start. -/
theorem choice {kinds : List TokenKind} {yes no yesMore noMore : Parse β}
    (hStarts : ∀ kind ∈ kinds, starts kind) (hEnd : ¬starts .eof)
    (hYes : ∀ (word : Terminal kinds) before rest recovered,
      Holds ⟨enough ∧ rest.length < cursor.rest.length, closed, anything, 0,
          fun faulty tokens => yields faulty (word.token :: tokens)⟩
        yes yesMore ⟨word.token :: before, rest, recovered⟩)
    (hNo : Holds ⟨enough, closed, starts, 1, yields⟩ no noMore cursor) :
    Holds ⟨enough, closed, starts, 1, yields⟩ (do if ← Parse.accept kinds then yes else no)
      (do if ← Parse.accept kinds then yesMore else noMore) cursor :=
  rules.accept hStarts (Nat.le_refl _) (fun h => absurd h hEnd) hYes hNo

end

/-! ## Expressions

Each token pays for ten steps in depth. A parser has enough of them if the bound covers
all tokens from the cursor on and what the parser needs itself before it reads the next
one. -/

abbrev startsExpression (kind : TokenKind) : Prop := kind ∈ Level.assignment.starts

/-- Operators of one level are read as long as there are any, by induction on the bound. The
expression so far is an operand of the next one. -/
theorem operators (rules : Rules Holds) {level : Level} {operand operandMore : Parse Expr}
    {bound : Nat}
    (hOperand : ∀ cursor, Holds ⟨10 * cursor.rest.length + 3 ≤ bound, False, startsExpression, 1,
      clean (Expression level.next)⟩ operand operandMore cursor)
    {fuel more : Nat} (hLe : fuel ≤ more) (left : Expr) (cursor : Cursor) :
    Holds ⟨10 * cursor.rest.length + 1 ≤ fuel ∧ 10 * cursor.rest.length ≤ bound + 7, False,
        anything, 0, clean fun read e => ∀ front, Expression level front left →
          Expression level (front ++ read) e⟩
      (Parse.operators level.operators operand fuel left)
      (Parse.operators level.operators operandMore more left) cursor := by
  induction fuel generalizing more left cursor with
  | zero => exact rules.exhausted (by omega)
  | succ fuel ih =>
      obtain ⟨more, rfl⟩ := Nat.exists_eq_add_one_of_ne_zero (by omega : more ≠ 0)
      unfold Parse.operators
      refine rules.option (fun _ => operators_not_end level)
        (fun operator before rest recovered => rules.previous ?_) (rules.pure ?_)
      · refine rules.andThen (hOperand _) (by dsimp only; omega) fun right faulty tokens after => ?_
        refine rules.lastly (ih (by omega) _ after) (by dsimp only; omega) ?_
        rintro others read e ⟨rfl, hGoOn⟩ ⟨rfl, hRight⟩
        refine ⟨rfl, fun front hLeft => ?_⟩
        have hBinary := hGoOn _ (hLeft.binary operator hRight)
        rwa [List.append_assoc] at hBinary
      · exact ⟨rfl, fun front hLeft => by rwa [List.append_nil]⟩

/-- A level starts with an operand and goes on with operators. -/
theorem level (rules : Rules Holds) {level : Level} {operand operandMore : Parse Expr}
    {fuel more : Nat} (hLe : fuel ≤ more)
    (hOperand : ∀ cursor, Holds ⟨10 * cursor.rest.length + 3 ≤ fuel, False, startsExpression, 1,
      clean (Expression level.next)⟩ operand operandMore cursor) (cursor : Cursor) :
    Holds ⟨10 * cursor.rest.length + 3 ≤ fuel, False, startsExpression, 1,
        clean (Expression level)⟩
      (Parse.level level.operators operand fuel) (Parse.level level.operators operandMore more)
      cursor := by
  refine rules.bind (hOperand cursor) fun first faulty tokens after => ?_
  refine rules.lastly (rules.operators hOperand hLe first after) (by omega) ?_
  rintro others read e ⟨rfl, hGoOn⟩ ⟨rfl, hFirst⟩
  exact ⟨rfl, hGoOn tokens (.tighter hFirst)⟩

/-- The four levels of operators, each on top of the next tighter one. -/
theorem equality (rules : Rules Holds) {operand operandMore : Parse Expr} {fuel more : Nat}
    (hLe : fuel ≤ more)
    (hOperand : ∀ cursor, Holds ⟨10 * cursor.rest.length + 3 ≤ fuel, False, startsExpression, 1,
      clean (Expression .sign)⟩ operand operandMore cursor) (cursor : Cursor) :
    Holds ⟨10 * cursor.rest.length + 3 ≤ fuel, False, startsExpression, 1,
        clean (Expression .equality)⟩
      (Parse.equality operand fuel) (Parse.equality operandMore more) cursor := by
  refine rules.level hLe (fun cursor => ?_) cursor
  refine rules.level hLe (fun cursor => ?_) cursor
  refine rules.level hLe (fun cursor => ?_) cursor
  refine rules.level hLe (fun cursor => ?_) cursor
  exact hOperand cursor

/-- Only what can be assigned to is turned into an assignment. -/
theorem assignTo (rules : Rules Holds) {enough : Prop} {yields : Bool → List Token → Expr → Prop}
    {target value : Expr} {equals : Token} (cursor : Cursor)
    (h : ∀ object name, assigned? target = some (object, name) →
      yields false [] (.set object name value equals)) :
    Holds ⟨enough, False, anything, 0, yields⟩ (Parse.assignTo target value equals)
      (Parse.assignTo target value equals) cursor := by
  unfold Parse.assignTo
  split
  · exact rules.pure (h _ _ rfl)
  · exact rules.pure (h _ _ rfl)
  · exact rules.reject _ _ _

mutual

/-- An assignment is an expression that may go on with an equals sign. All parsers of expressions
are treated together, by induction on the bound. -/
theorem assignment (rules : Rules Holds) {fuel more : Nat} (hLe : fuel ≤ more) (cursor : Cursor) :
    Holds ⟨10 * cursor.rest.length + 4 ≤ fuel, False, startsExpression, 1,
        clean (Expression .assignment)⟩
      (Parse.assignment fuel) (Parse.assignment more) cursor := by
  match fuel, more with
  | 0, _ => exact rules.exhausted (by omega)
  | fuel + 1, more + 1 =>
      have hFuel : fuel ≤ more := by omega
      have hTarget : Holds ⟨10 * cursor.rest.length + 4 ≤ fuel + 1, False, startsExpression, 1,
          clean (Expression .equality)⟩ (Parse.equality (Parse.unary fuel) fuel)
          (Parse.equality (Parse.unary more) more) cursor :=
        rules.weaken (rules.equality hFuel (unary rules hFuel) cursor) (by omega) id
          (fun _ h => h) (Nat.le_refl _) fun _ _ _ h => h
      unfold Parse.assignment
      refine rules.bind hTarget fun target faulty front after => ?_
      refine rules.option (fun _ => by decide)
        (fun equals before rest recovered => rules.previous ?_) (rules.pure ?_)
      · refine rules.andThen (assignment rules hFuel _) (by dsimp only; omega)
          fun value others back finish => ?_
        refine rules.assignTo finish ?_
        rintro object name hAssigned ⟨rfl, hValue⟩ ⟨rfl, hTarget⟩
        rw [List.append_nil]
        exact ⟨rfl, .assign (hTarget.target hAssigned) equals hValue⟩
      · rintro ⟨rfl, hTarget⟩
        rw [List.append_nil]
        exact ⟨rfl, .tighter hTarget⟩

theorem unary (rules : Rules Holds) {fuel more : Nat} (hLe : fuel ≤ more) (cursor : Cursor) :
    Holds ⟨10 * cursor.rest.length + 3 ≤ fuel, False, startsExpression, 1,
        clean (Expression .sign)⟩
      (Parse.unary fuel) (Parse.unary more) cursor := by
  match fuel, more with
  | 0, _ => exact rules.exhausted (by omega)
  | fuel + 1, more + 1 =>
      have hFuel : fuel ≤ more := by omega
      unfold Parse.unary
      refine rules.choice (by decide) (by decide)
        (fun operator before rest recovered => rules.previous ?_) ?_
      · refine rules.lastlyMap (unary rules hFuel _) (by dsimp only; omega) id ?_
        rintro faulty tokens right ⟨rfl, hRight⟩
        exact ⟨rfl, .unary operator hRight⟩
      · refine rules.weaken (call rules hFuel cursor) (by omega) id (fun _ h => ?_)
          (Nat.le_refl _) ?_
        · exact List.mem_append_left _ h
        · rintro faulty tokens e ⟨rfl, hCall⟩
          exact ⟨rfl, .tighter hCall⟩

theorem call (rules : Rules Holds) {fuel more : Nat} (hLe : fuel ≤ more) (cursor : Cursor) :
    Holds ⟨10 * cursor.rest.length + 2 ≤ fuel, False, (· ∈ Level.primary.starts), 1,
        clean (Expression .call)⟩
      (Parse.call fuel) (Parse.call more) cursor := by
  match fuel, more with
  | 0, _ => exact rules.exhausted (by omega)
  | fuel + 1, more + 1 =>
      have hFuel : fuel ≤ more := by omega
      have hPrimary : Holds ⟨10 * cursor.rest.length + 2 ≤ fuel + 1, False,
          (· ∈ Level.primary.starts), 1, clean (Expression .primary)⟩ (Parse.primary fuel)
          (Parse.primary more) cursor :=
        rules.weaken (primary rules hFuel cursor) (by omega) id (fun _ h => h) (Nat.le_refl _)
          fun _ _ _ h => h
      unfold Parse.call
      refine rules.bind hPrimary fun first faulty front after => ?_
      refine rules.lastly (suffixes rules hFuel first after) (by omega) ?_
      rintro others read e ⟨rfl, hGoOn⟩ ⟨rfl, hFirst⟩
      exact ⟨rfl, hGoOn front (.tighter hFirst)⟩

/-- Calls, properties and indices extend an expression that has been read. -/
theorem suffixes (rules : Rules Holds) {fuel more : Nat} (hLe : fuel ≤ more) (e : Expr)
    (cursor : Cursor) :
    Holds ⟨10 * cursor.rest.length + 1 ≤ fuel, False, anything, 0, clean fun read result =>
        ∀ front, Expression .call front e → Expression .call (front ++ read) result⟩
      (Parse.suffixes fuel e) (Parse.suffixes more e) cursor := by
  match fuel, more with
  | 0, _ => exact rules.exhausted (by omega)
  | fuel + 1, more + 1 =>
      have hFuel : fuel ≤ more := by omega
      unfold Parse.suffixes
      refine rules.option (fun _ => by decide) (fun opening before rest recovered => ?_)
        (rules.option (fun _ => by decide) (fun dot before rest recovered => ?_)
        (rules.option (fun _ => by decide) (fun opening before rest recovered => ?_)
        (rules.pure ⟨rfl, fun front hFront => by rwa [List.append_nil]⟩)))
      · refine rules.andThen (items rules (by decide) hFuel _) (by dsimp only; omega)
          fun arguments faulty tokens after => ?_
        refine rules.word fun closing before rest recovered => ?_
        refine rules.lastly (suffixes rules hFuel _ _) (by dsimp only; omega) ?_
        rintro others read result ⟨rfl, hGoOn⟩ ⟨rfl, hArguments⟩
        refine ⟨rfl, fun front hFront => ?_⟩
        have hCall := hGoOn _ (hFront.call opening hArguments closing)
        simpa only [List.append_assoc, List.cons_append, List.nil_append] using hCall
      · refine rules.word fun name before rest recovered => ?_
        refine rules.lastly (suffixes rules hFuel _ _) (by dsimp only; omega) ?_
        rintro others read result ⟨rfl, hGoOn⟩
        refine ⟨rfl, fun front hFront => ?_⟩
        have hProperty := hGoOn _ (hFront.property dot name)
        simpa only [List.append_assoc, List.cons_append, List.nil_append] using hProperty
      · have hIndex : Holds ⟨10 * cursor.rest.length + 1 ≤ fuel + 1 ∧
            rest.length < cursor.rest.length, False, startsExpression, 1,
            clean (Expression .assignment)⟩ (Parse.assignment fuel) (Parse.assignment more)
            ⟨opening.token :: before, rest, recovered⟩ :=
          rules.weaken (assignment rules hFuel _) (by dsimp only; omega) id (fun _ h => h)
            (Nat.le_refl _) fun _ _ _ h => h
        refine rules.index hIndex fun index tokens closing name before rest recovered => ?_
        refine rules.lastly (suffixes rules hFuel _ _) (by dsimp only; omega) ?_
        rintro others read result ⟨rfl, hGoOn⟩ hInner hName
        refine ⟨rfl, fun front hFront => ?_⟩
        have hGet := hGoOn _ (hFront.index opening hInner closing hName)
        simpa only [List.append_assoc, List.cons_append, List.nil_append] using hGet

/-- Expressions up to a closing token, of which there may be none. -/
theorem items (rules : Rules Holds) {close : TokenKind} (hClose : close ∉ declarationEnds)
    {fuel more : Nat} (hLe : fuel ≤ more) (cursor : Cursor) :
    Holds ⟨10 * cursor.rest.length + 6 ≤ fuel, False, anything, 0, clean Expressions⟩
      (Parse.items close fuel) (Parse.items close more) cursor := by
  match fuel, more with
  | 0, _ => exact rules.exhausted (by omega)
  | fuel + 1, more + 1 =>
      have hFuel : fuel ≤ more := by omega
      unfold Parse.items
      refine rules.check hClose fun answer => ?_
      cases answer with
      | true => exact rules.pure ⟨rfl, .none⟩
      | false =>
          refine rules.lastly (moreItems rules hFuel cursor) (by omega) ?_
          exact fun _ _ _ hItems => ⟨hItems.1, hItems.2.1⟩

theorem moreItems (rules : Rules Holds) {fuel more : Nat} (hLe : fuel ≤ more) (cursor : Cursor) :
    Holds ⟨10 * cursor.rest.length + 5 ≤ fuel, False, anything, 0,
        clean fun read es => Expressions read es ∧ es ≠ []⟩
      (Parse.moreItems fuel) (Parse.moreItems more) cursor := by
  match fuel, more with
  | 0, _ => exact rules.exhausted (by omega)
  | fuel + 1, more + 1 =>
      have hFuel : fuel ≤ more := by omega
      unfold Parse.moreItems
      refine rules.andThen (assignment rules hFuel cursor) (by omega)
        fun first faulty tokens after => ?_
      refine rules.option (fun _ => by decide) (fun comma before rest recovered => ?_)
        (rules.pure ?_)
      · refine rules.lastlyMap (moreItems rules hFuel _) (by dsimp only; omega) id ?_
        rintro noted read others ⟨rfl, hOthers, hSome⟩ ⟨rfl, hFirst⟩
        obtain ⟨next, rest, rfl⟩ := List.exists_cons_of_ne_nil hSome
        exact ⟨rfl, .more hFirst comma hOthers, List.cons_ne_nil _ _⟩
      · rintro ⟨rfl, hFirst⟩
        rw [List.append_nil]
        exact ⟨rfl, .one hFirst, List.cons_ne_nil _ _⟩

/-- Each case starts with a token of its own kind. -/
theorem primary (rules : Rules Holds) {fuel more : Nat} (hLe : fuel ≤ more) (cursor : Cursor) :
    Holds ⟨10 * cursor.rest.length + 1 ≤ fuel, False, (· ∈ Level.primary.starts), 1,
        clean (Expression .primary)⟩
      (Parse.primary fuel) (Parse.primary more) cursor := by
  match fuel, more with
  | 0, _ => exact rules.exhausted (by omega)
  | fuel + 1, more + 1 =>
      have hFuel : fuel ≤ more := by omega
      have hEnd : .eof ∉ Level.primary.starts := by decide
      unfold Parse.primary
      refine rules.choice (by decide) hEnd (fun word before rest recovered => ?_)
        (rules.choice (by decide) hEnd (fun word before rest recovered => ?_)
        (rules.choice (by decide) hEnd (fun word before rest recovered => ?_)
        (rules.choice (by decide) hEnd (fun name before rest recovered => ?_)
        (rules.choice (by decide) hEnd (fun opening before rest recovered => ?_)
        (rules.choice (by decide) hEnd (fun opening before rest recovered => ?_)
        (rules.choice (by decide) hEnd (fun word before rest recovered => ?_)
        (rules.rejectNext _ _)))))))
      · exact rules.previous (rules.pure ⟨rfl, .literal word⟩)
      · exact rules.previous (rules.pure ⟨rfl, .this word⟩)
      · refine rules.previous (rules.word fun dot before rest recovered => ?_)
        refine rules.word fun method before rest recovered => ?_
        exact rules.pure ⟨rfl, .super word dot method⟩
      · exact rules.previous (rules.pure ⟨rfl, .variable name⟩)
      · refine rules.andThen (assignment rules hFuel _) (by dsimp only; omega)
          fun e faulty tokens after => ?_
        refine rules.word fun closing before rest recovered => rules.pure ?_
        rintro ⟨rfl, hInner⟩
        exact ⟨rfl, .group opening hInner closing⟩
      · refine rules.andThen (items rules (by decide) hFuel _) (by dsimp only; omega)
          fun elements faulty tokens after => ?_
        refine rules.word fun closing before rest recovered => rules.pure ?_
        rintro ⟨rfl, hInner⟩
        exact ⟨rfl, .array opening hInner closing⟩
      · refine rules.word fun name before rest recovered => ?_
        refine rules.word fun opening before rest recovered => ?_
        refine rules.andThen (items rules (by decide) hFuel _) (by dsimp only; omega)
          fun arguments faulty tokens after => ?_
        refine rules.word fun closing before rest recovered => rules.pure ?_
        rintro ⟨rfl, hInner⟩
        exact ⟨rfl, .new word name opening hInner closing⟩

end

/-! ## Declarations and statements -/

theorem varDeclaration (rules : Rules Holds) {fuel more : Nat} (hLe : fuel ≤ more)
    (cursor : Cursor) :
    Holds ⟨10 * cursor.rest.length + 1 ≤ fuel, False, anything, 0, clean Binding⟩
      (Parse.varDeclaration fuel) (Parse.varDeclaration more) cursor := by
  refine rules.word fun name before rest recovered => ?_
  refine rules.word fun arrow before rest recovered => ?_
  refine rules.word fun type before rest recovered => ?_
  refine rules.option (fun _ => by decide) (fun equals before rest recovered => ?_)
    (rules.pure ⟨rfl, .bare name arrow type⟩)
  refine rules.lastlyMap (rules.assignment hLe _) (by dsimp only; omega) id ?_
  rintro faulty tokens e ⟨rfl, hInitializer⟩
  exact ⟨rfl, .initialized name arrow type equals hInitializer⟩

theorem moreParameters (rules : Rules Holds) {fuel more : Nat} (hLe : fuel ≤ more)
    (cursor : Cursor) :
    Holds ⟨10 * cursor.rest.length + 1 ≤ fuel, False, anything, 0,
        clean fun read params => Parameters read params ∧ params ≠ []⟩
      (Parse.moreParameters fuel) (Parse.moreParameters more) cursor := by
  induction fuel generalizing more cursor with
  | zero => exact rules.exhausted (by omega)
  | succ fuel ih =>
      obtain ⟨more, rfl⟩ := Nat.exists_eq_add_one_of_ne_zero (by omega : more ≠ 0)
      unfold Parse.moreParameters
      refine rules.word fun name before rest recovered => ?_
      refine rules.word fun arrow before rest recovered => ?_
      refine rules.word fun type before rest recovered => ?_
      refine rules.option (fun _ => by decide) (fun comma before rest recovered => ?_)
        (rules.pure ⟨rfl, .one name arrow type, List.cons_ne_nil _ _⟩)
      refine rules.lastlyMap (ih (by omega) _) (by dsimp only; omega) id ?_
      rintro faulty read others ⟨rfl, hOthers, hSome⟩
      obtain ⟨next, rest, rfl⟩ := List.exists_cons_of_ne_nil hSome
      exact ⟨rfl, .more name arrow type comma hOthers, List.cons_ne_nil _ _⟩

/-- Parameters up to the closing parenthesis, of which there may be none. -/
theorem parameters (rules : Rules Holds) {fuel more : Nat} (hLe : fuel ≤ more)
    (cursor : Cursor) :
    Holds ⟨10 * cursor.rest.length + 1 ≤ fuel, False, anything, 0, clean Parameters⟩
      (Parse.parameters fuel) (Parse.parameters more) cursor := by
  refine rules.check (by decide) fun answer => ?_
  cases answer with
  | true => exact rules.pure ⟨rfl, .none⟩
  | false =>
      refine rules.lastly (rules.moreParameters hLe cursor) id ?_
      exact fun _ _ _ hParams => ⟨hParams.1, hParams.2.1⟩

/-- A return has no value only in front of a closing brace. -/
theorem returnStatement (rules : Rules Holds) {fuel more : Nat} (hLe : fuel ≤ more)
    (word : Terminal [.returnWord]) (before rest : List Token) (recovered : List SyntaxError) :
    Holds ⟨10 * rest.length + 4 ≤ fuel, False, anything, 0,
        fun faulty tokens => Statement faulty (word.token :: tokens)⟩
      (Parse.returnStatement fuel) (Parse.returnStatement more)
      ⟨word.token :: before, rest, recovered⟩ := by
  refine rules.previous (rules.check (by decide) fun answer => ?_)
  cases answer with
  | true => exact rules.pure (.ret word)
  | false =>
      refine rules.lastlyMap (rules.assignment hLe _) id id ?_
      rintro faulty tokens e ⟨rfl, hValue⟩
      exact .retValue word hValue

theorem superclassName (rules : Rules Holds) (cursor : Cursor) :
    Holds ⟨True, False, anything, 0, clean Superclass⟩ Parse.superclassName Parse.superclassName
      cursor := by
  refine rules.option (fun _ => by decide) (fun word before rest recovered => ?_)
    (rules.pure ⟨rfl, .none⟩)
  refine rules.word fun name before rest recovered => ?_
  exact rules.pure ⟨rfl, .named word name⟩

/-- The word that declares an iterator changes nothing but the tokens. -/
theorem loopClauses (rules : Rules Holds) {fuel more : Nat} (hLe : fuel ≤ more)
    (hBody : ∀ cursor, Holds ⟨10 * cursor.rest.length + 5 ≤ fuel, False, (· ∈ statementStarts), 1,
      Statement⟩ (Parse.statement fuel) (Parse.statement more) cursor)
    {declared : List Token} (hDeclared : Optional .varWord declared) (cursor : Cursor) :
    Holds ⟨10 * cursor.rest.length ≤ fuel, False, (· = .identifier), 1, fun faulty tokens stmt =>
        ∀ (word : Terminal [.forWord]) (opening : Terminal [.leftParen]),
          Statement faulty (word.token :: opening.token :: (declared ++ tokens)) stmt⟩
      (Parse.loopClauses fuel) (Parse.loopClauses more) cursor := by
  refine rules.consume fun iterator before rest recovered => ?_
  refine rules.word fun equals before rest recovered => ?_
  refine rules.andThen (rules.assignment hLe _) (by dsimp only; omega)
    fun start noted first after => ?_
  refine rules.word fun semicolon before rest recovered => ?_
  refine rules.andThen (rules.assignment hLe _) (by dsimp only; omega)
    fun condition noted second after => ?_
  refine rules.word fun semicolonNext before rest recovered => ?_
  refine rules.andThen (rules.assignment hLe _) (by dsimp only; omega)
    fun increment noted third after => ?_
  refine rules.word fun closing before rest recovered => ?_
  refine rules.lastlyMap (hBody _) (by dsimp only; omega) id ?_
  rintro faulty inner body hInner ⟨rfl, hStep⟩ ⟨rfl, hTest⟩ ⟨rfl, hStart⟩ word opening
  rw [countingLoop_eq]
  exact .count word opening hDeclared iterator equals hStart semicolon hTest semicolonNext hStep
    closing hInner

mutual

/-- A declaration recovers from a rejected token. All parsers of statements are treated together, by
induction on the bound. -/
theorem declaration (rules : Rules Holds) {fuel more : Nat} (hLe : fuel ≤ more) {cursor : Cursor}
    (hOff : ¬cursor.AtMark) :
    Holds ⟨10 * cursor.rest.length + 7 ≤ fuel, False, anything, 1, Declaration⟩
      (Parse.declaration fuel) (Parse.declaration more) cursor := by
  match fuel, more with
  | 0, _ => exact rules.exhausted (by omega)
  | fuel + 1, more + 1 =>
      have hFuel : fuel ≤ more := by omega
      refine rules.weaken (rules.recovering hOff (plainDeclaration rules hFuel cursor)) (by omega)
        id (fun _ h => h) (Nat.le_refl _) fun _ _ _ h => h

theorem plainDeclaration (rules : Rules Holds) {fuel more : Nat} (hLe : fuel ≤ more)
    (cursor : Cursor) :
    Holds ⟨10 * cursor.rest.length + 6 ≤ fuel, False, (· ∈ declarationStarts), 1, Declaration⟩
      (Parse.plainDeclaration fuel) (Parse.plainDeclaration more) cursor := by
  match fuel, more with
  | 0, _ => exact rules.exhausted (by omega)
  | fuel + 1, more + 1 =>
      have hFuel : fuel ≤ more := by omega
      have hEnd : .eof ∉ declarationStarts := by decide
      unfold Parse.plainDeclaration
      refine rules.choice (by decide) hEnd (fun word before rest recovered => ?_)
        (rules.choice (by decide) hEnd (fun word before rest recovered => ?_)
        (rules.choice (by decide) hEnd (fun word before rest recovered => ?_) ?_))
      · refine rules.lastly (classDeclaration rules hFuel word _) (by dsimp only; omega) ?_
        exact fun _ _ _ h => h
      · refine rules.lastlyMap (functionDeclaration rules hFuel _) (by dsimp only; omega) id ?_
        exact fun _ _ _ hRoutine => .function word hRoutine
      · refine rules.lastlyMap (rules.varDeclaration hFuel _) (by dsimp only; omega) id ?_
        rintro faulty tokens decl ⟨rfl, hBinding⟩
        exact .variable word hBinding
      · refine rules.weaken (statement rules hFuel cursor) (by omega) id
          (fun _ h => List.mem_append_right _ h) (Nat.le_refl _) ?_
        exact fun _ _ _ hStatement => .statement hStatement

/-- A class, with its members between braces. -/
theorem classDeclaration (rules : Rules Holds) {fuel more : Nat} (hLe : fuel ≤ more)
    (word : Terminal [.classWord]) (cursor : Cursor) :
    Holds ⟨10 * cursor.rest.length + 1 ≤ fuel, False, anything, 0,
        fun faulty tokens => Declaration faulty (word.token :: tokens)⟩
      (Parse.classDeclaration fuel) (Parse.classDeclaration more) cursor := by
  match fuel, more with
  | 0, _ => exact rules.exhausted (by omega)
  | fuel + 1, more + 1 =>
      have hFuel : fuel ≤ more := by omega
      unfold Parse.classDeclaration
      refine rules.word fun name before rest recovered => ?_
      refine rules.andThen (rules.superclassName _) (fun _ => trivial)
        fun superclass noted parent after => ?_
      refine rules.word fun opening before rest recovered => ?_
      refine rules.closing (rules.weaken (members rules hFuel _) (by dsimp only; omega) id
        (fun _ h => h) (Nat.le_refl _) fun _ _ _ h => h) ?_
      rintro faulty tokens found closing hMembers ⟨rfl, hParent⟩
      exact .classDef word name hParent opening hMembers closing

/-- Fields and methods in any order. What is neither is rejected. -/
theorem members (rules : Rules Holds) {fuel more : Nat} (hLe : fuel ≤ more) (cursor : Cursor) :
    Holds ⟨10 * cursor.rest.length + 1 ≤ fuel, True, anything, 0,
        fun faulty tokens found => Members faulty tokens found.1 found.2⟩
      (Parse.members fuel) (Parse.members more) cursor := by
  match fuel, more with
  | 0, _ => exact rules.exhausted (by omega)
  | fuel + 1, more + 1 =>
      have hFuel : fuel ≤ more := by omega
      unfold Parse.members
      refine rules.unlessClosed .none fun hOff => ?_
      refine rules.option (fun h => absurd h hOff) (fun word before rest recovered => ?_)
        (rules.option (fun h => absurd h hOff) (fun word before rest recovered => ?_)
        (rules.rejectNext _ _))
      · refine rules.andThen (rules.varDeclaration hFuel _) (by dsimp only; omega)
          fun field noted front after => ?_
        refine rules.lastlyMap (members rules hFuel _) (by dsimp only; omega) id ?_
        rintro faulty tokens found hMembers ⟨rfl, hField⟩
        exact .field word hField hMembers
      · refine rules.andThen (functionDeclaration rules hFuel _) (by dsimp only; omega)
          fun method noted front after => ?_
        refine rules.lastlyMap (members rules hFuel _) (by dsimp only; omega) id ?_
        exact fun _ _ _ hMembers hMethod => .method word hMethod hMembers

theorem functionDeclaration (rules : Rules Holds) {fuel more : Nat} (hLe : fuel ≤ more)
    (cursor : Cursor) :
    Holds ⟨10 * cursor.rest.length + 1 ≤ fuel, False, anything, 0, Routine⟩
      (Parse.functionDeclaration fuel) (Parse.functionDeclaration more) cursor := by
  match fuel, more with
  | 0, _ => exact rules.exhausted (by omega)
  | fuel + 1, more + 1 =>
      have hFuel : fuel ≤ more := by omega
      unfold Parse.functionDeclaration
      refine rules.word fun name before rest recovered => ?_
      refine rules.word fun opening before rest recovered => ?_
      refine rules.andThen (rules.parameters hFuel _) (by dsimp only; omega)
        fun params noted list after => ?_
      refine rules.word fun closing before rest recovered => ?_
      refine rules.word fun brace before rest recovered => ?_
      refine rules.closing (rules.weaken (declarations rules hFuel _) (by dsimp only; omega) id
        (fun _ h => h) (Nat.le_refl _) fun _ _ _ h => h) ?_
      rintro faulty tokens body braceEnd hBody ⟨rfl, hParams⟩
      exact .intro name opening hParams closing brace hBody braceEnd

/-- Declarations up to a closing brace or to the end mark. -/
theorem declarations (rules : Rules Holds) {fuel more : Nat} (hLe : fuel ≤ more)
    (cursor : Cursor) :
    Holds ⟨10 * cursor.rest.length + 8 ≤ fuel, True, anything, 0, Declarations⟩
      (Parse.declarations fuel) (Parse.declarations more) cursor := by
  match fuel, more with
  | 0, _ => exact rules.exhausted (by omega)
  | fuel + 1, more + 1 =>
      have hFuel : fuel ≤ more := by omega
      unfold Parse.declarations
      refine rules.unlessClosed .none fun hOff => ?_
      refine rules.andThen (declaration rules hFuel hOff) (by omega)
        fun first noted front after => ?_
      refine rules.lastlyMap (declarations rules hFuel _) (by omega) id ?_
      exact fun _ _ _ hRest hFirst => .more hFirst hRest

theorem block (rules : Rules Holds) {fuel more : Nat} (hLe : fuel ≤ more)
    (opening : Terminal [.leftBrace]) (cursor : Cursor) :
    Holds ⟨10 * cursor.rest.length + 9 ≤ fuel, False, anything, 0,
        fun faulty tokens body => Statement faulty (opening.token :: tokens) (.block body)⟩
      (Parse.block fuel) (Parse.block more) cursor := by
  match fuel, more with
  | 0, _ => exact rules.exhausted (by omega)
  | fuel + 1, more + 1 =>
      have hFuel : fuel ≤ more := by omega
      unfold Parse.block
      refine rules.closing (rules.weaken (declarations rules hFuel _) (by omega) id
        (fun _ h => h) (Nat.le_refl _) fun _ _ _ h => h) ?_
      exact fun _ _ _ closing hBody => .block opening hBody closing

/-- Each kind of statement starts with a token of its own kind. Any other statement is an
expression. -/
theorem statement (rules : Rules Holds) {fuel more : Nat} (hLe : fuel ≤ more) (cursor : Cursor) :
    Holds ⟨10 * cursor.rest.length + 5 ≤ fuel, False, (· ∈ statementStarts), 1, Statement⟩
      (Parse.statement fuel) (Parse.statement more) cursor := by
  match fuel, more with
  | 0, _ => exact rules.exhausted (by omega)
  | fuel + 1, more + 1 =>
      have hFuel : fuel ≤ more := by omega
      have hEnd : .eof ∉ statementStarts := by decide
      unfold Parse.statement
      refine rules.choice (by decide) hEnd (fun word before rest recovered => ?_)
        (rules.choice (by decide) hEnd (fun word before rest recovered => ?_)
        (rules.choice (by decide) hEnd (fun word before rest recovered => ?_)
        (rules.choice (by decide) hEnd (fun word before rest recovered => ?_)
        (rules.choice (by decide) hEnd (fun opening before rest recovered => ?_) ?_))))
      · refine rules.lastly (ifStatement rules hFuel word _) (by dsimp only; omega) ?_
        exact fun _ _ _ h => h
      · refine rules.lastly (whileStatement rules hFuel word _) (by dsimp only; omega) ?_
        exact fun _ _ _ h => h
      · refine rules.lastly (forStatement rules hFuel word _) (by dsimp only; omega) ?_
        exact fun _ _ _ h => h
      · refine rules.lastly (rules.returnStatement hFuel word _ _ _) (by omega) ?_
        exact fun _ _ _ h => h
      · refine rules.lastlyMap (block rules hFuel opening _) (by dsimp only; omega) id ?_
        exact fun _ _ _ h => h
      · have hExpression : Holds ⟨10 * cursor.rest.length + 4 ≤ fuel, False, startsExpression, 1,
            Statement⟩ (do return .expression (← Parse.assignment fuel))
            (do return .expression (← Parse.assignment more)) cursor := by
          refine rules.map (rules.assignment hFuel cursor) ?_
          rintro faulty tokens e ⟨rfl, hInner⟩
          exact .expression hInner
        exact rules.weaken hExpression (by omega) id (fun _ h => List.mem_append_right _ h)
          (Nat.le_refl _) fun _ _ _ h => h

theorem ifStatement (rules : Rules Holds) {fuel more : Nat} (hLe : fuel ≤ more)
    (word : Terminal [.ifWord]) (cursor : Cursor) :
    Holds ⟨10 * cursor.rest.length + 1 ≤ fuel, False, anything, 0,
        fun faulty tokens => Statement faulty (word.token :: tokens)⟩
      (Parse.ifStatement fuel) (Parse.ifStatement more) cursor := by
  match fuel, more with
  | 0, _ => exact rules.exhausted (by omega)
  | fuel + 1, more + 1 =>
      have hFuel : fuel ≤ more := by omega
      unfold Parse.ifStatement
      refine rules.word fun opening before rest recovered => ?_
      refine rules.andThen (rules.assignment hFuel _) (by dsimp only; omega)
        fun condition noted tokens after => ?_
      refine rules.word fun closing before rest recovered => ?_
      refine rules.andThen (statement rules hFuel _) (by dsimp only; omega)
        fun thenBranch faulty front after => ?_
      refine rules.option (fun _ => by decide) (fun otherwise before rest recovered => ?_)
        (rules.pure ?_)
      · refine rules.lastlyMap (statement rules hFuel _) (by dsimp only; omega) id ?_
        rintro others back elseBranch hElse hThen ⟨rfl, hCondition⟩
        exact .choice word opening hCondition closing hThen otherwise hElse
      · rintro hThen ⟨rfl, hCondition⟩
        rw [List.append_nil, Bool.or_false]
        exact .branch word opening hCondition closing hThen

theorem whileStatement (rules : Rules Holds) {fuel more : Nat} (hLe : fuel ≤ more)
    (word : Terminal [.whileWord]) (cursor : Cursor) :
    Holds ⟨10 * cursor.rest.length + 1 ≤ fuel, False, anything, 0,
        fun faulty tokens => Statement faulty (word.token :: tokens)⟩
      (Parse.whileStatement fuel) (Parse.whileStatement more) cursor := by
  match fuel, more with
  | 0, _ => exact rules.exhausted (by omega)
  | fuel + 1, more + 1 =>
      have hFuel : fuel ≤ more := by omega
      unfold Parse.whileStatement
      refine rules.word fun opening before rest recovered => ?_
      refine rules.andThen (rules.assignment hFuel _) (by dsimp only; omega)
        fun condition noted tokens after => ?_
      refine rules.word fun closing before rest recovered => ?_
      refine rules.lastlyMap (statement rules hFuel _) (by dsimp only; omega) id ?_
      rintro faulty inner body hBody ⟨rfl, hCondition⟩
      exact .loop word opening hCondition closing hBody

/-- A counting loop. The word that declares its iterator may be missing. -/
theorem forStatement (rules : Rules Holds) {fuel more : Nat} (hLe : fuel ≤ more)
    (word : Terminal [.forWord]) (cursor : Cursor) :
    Holds ⟨10 * cursor.rest.length + 1 ≤ fuel, False, anything, 0,
        fun faulty tokens => Statement faulty (word.token :: tokens)⟩
      (Parse.forStatement fuel) (Parse.forStatement more) cursor := by
  match fuel, more with
  | 0, _ => exact rules.exhausted (by omega)
  | fuel + 1, more + 1 =>
      have hFuel : fuel ≤ more := by omega
      unfold Parse.forStatement
      refine rules.word fun opening before rest recovered => ?_
      refine rules.optionBefore (by decide) (fun var before rest recovered => ?_) ?_
      · refine rules.lastly (rules.loopClauses hFuel (statement rules hFuel) (.present var) _)
          (by dsimp only; omega) ?_
        exact fun _ _ _ hClauses => hClauses word opening
      · refine rules.weaken (rules.loopClauses hFuel (statement rules hFuel) .missing _)
          (by dsimp only; omega) id (fun kind hKind => ?_) (Nat.le_refl _) ?_
        · rw [hKind]
          decide
        · exact fun _ _ _ hClauses => hClauses word opening

end

/-- Declarations up to the end mark, from the property of a single one. -/
theorem program (rules : Rules Holds) {fuel more : Nat} (hLe : fuel ≤ more) (cursor : Cursor) :
    Holds ⟨10 * cursor.rest.length + 8 ≤ fuel, True, anything, 0, Declarations⟩
      (Parse.program fuel) (Parse.program more) cursor := by
  induction fuel generalizing more cursor with
  | zero => exact rules.exhausted (by omega)
  | succ fuel ih =>
      obtain ⟨more, rfl⟩ := Nat.exists_eq_add_one_of_ne_zero (by omega : more ≠ 0)
      have hFuel : fuel ≤ more := by omega
      unfold Parse.program
      refine rules.unlessEnded .none fun hOff => ?_
      refine rules.andThen (rules.declaration hFuel hOff) (by omega)
        fun first noted front after => ?_
      refine rules.lastlyMap (ih hFuel after) (by omega) id ?_
      exact fun _ _ _ hRest hFirst => .more hFirst hRest

end Rules

end Mus.Parse
