import Mus.Proofs.Session.Nested
import Mus.Proofs.Session.Running
import Mus.Proofs.Token.Reading

/-! Syntax errors stay in the tree. A declaration that is rejected leaves a
placeholder. It is lost only if a declaration around it is rejected later, which
leaves a placeholder of its own. So a program in which no placeholder stands was
parsed without an error. Conversely, the tokens of a source make no placeholder
unless an error does: a literal of a source is never the empty one. Both are seen
from the mark of the derivation. -/
namespace Mus

/-- A placeholder stands in the statement, at any depth. -/
def Stmt.Faulty (stmt : Stmt) : Prop :=
  ∃ token, (Stmt.expression (.literal .nothing token)).Within stmt

def FunDecl.Faulty (decl : FunDecl) : Prop :=
  ∃ stmt ∈ decl.body, stmt.Faulty

namespace Stmt

variable {stmt : Stmt} {body : List Stmt}

theorem faulty_placeholder (error : SyntaxError) : (Parse.placeholder error).Faulty :=
  ⟨error.token, .self⟩

/-- A placeholder in a block stands in one of its statements. -/
theorem faulty_block : (block body).Faulty ↔ ∃ stmt ∈ body, stmt.Faulty := by
  constructor
  · rintro ⟨token, h⟩
    cases h with
    | block hMem h => exact ⟨_, hMem, token, h⟩
  · rintro ⟨stmt, hMem, token, h⟩
    exact ⟨token, .block hMem h⟩

/-- A placeholder in a branch stands in one of its two sides. -/
theorem faulty_branch {condition : Expr} {elseBranch : Option Stmt} :
    (branch condition stmt elseBranch).Faulty ↔
      stmt.Faulty ∨ ∃ other, elseBranch = some other ∧ other.Faulty := by
  constructor
  · rintro ⟨token, h⟩
    cases h with
    | thenBranch h => exact .inl ⟨token, h⟩
    | elseBranch h => exact .inr ⟨_, rfl, token, h⟩
  · rintro (⟨token, h⟩ | ⟨other, rfl, token, h⟩)
    · exact ⟨token, .thenBranch h⟩
    · exact ⟨token, .elseBranch h⟩

theorem faulty_loop {condition : Expr} : (loop condition stmt).Faulty ↔ stmt.Faulty := by
  constructor
  · rintro ⟨token, h⟩
    cases h with
    | loop h => exact ⟨token, h⟩
  · rintro ⟨token, h⟩
    exact ⟨token, .loop h⟩

theorem faulty_funDecl {decl : FunDecl} : (funDecl decl).Faulty ↔ decl.Faulty := by
  constructor
  · rintro ⟨token, h⟩
    cases h with
    | function hMem h => exact ⟨_, hMem, token, h⟩
  · rintro ⟨stmt, hMem, token, h⟩
    exact ⟨token, .function hMem h⟩

/-- A placeholder in a class stands in one of its methods. -/
theorem faulty_classDecl {name : String} {superclass : Option String} {fields : List VarDecl}
    {methods : List FunDecl} {token : Token} :
    (classDecl name superclass fields methods token).Faulty ↔
      ∃ method ∈ methods, method.Faulty := by
  constructor
  · rintro ⟨token, h⟩
    cases h with
    | method hDecl hMem h => exact ⟨_, hDecl, _, hMem, token, h⟩
  · rintro ⟨method, hDecl, stmt, hMem, token, h⟩
    exact ⟨token, .method hDecl hMem h⟩

theorem faulty_varDecl (decl : VarDecl) : ¬(varDecl decl).Faulty := by
  rintro ⟨token, h⟩
  cases h

theorem faulty_ret (value : Option Expr) (token : Token) : ¬(ret value token).Faulty := by
  rintro ⟨token, h⟩
  cases h

/-- A statement of an expression is a placeholder if this is the empty literal. -/
theorem faulty_expression {e : Expr} :
    (expression e).Faulty ↔ ∃ token, e = .literal .nothing token := by
  constructor
  · rintro ⟨token, h⟩
    cases h with
    | self => exact ⟨token, rfl⟩
  · rintro ⟨token, rfl⟩
    exact ⟨token, .self⟩

/-- The body of a counting loop has the placeholders of the statement. -/
theorem faulty_bodyOf : (∃ inner ∈ Written.bodyOf stmt, inner.Faulty) ↔ stmt.Faulty := by
  cases stmt with
  | block body => exact faulty_block.symm
  | _ => simp [Written.bodyOf]

/-- The body of a counting loop is kept, and the step is added to it. -/
theorem faulty_countingLoop {iterator : String} {start condition increment : Expr} :
    (Parse.countingLoop iterator start condition increment stmt).Faulty ↔
      stmt.Faulty ∨ (expression increment).Faulty := by
  rw [Parse.countingLoop_eq, faulty_block]
  simp only [List.mem_cons, List.not_mem_nil, or_false, exists_eq_left, faulty_varDecl,
    faulty_loop, faulty_block, false_or, List.mem_append, or_and_right, exists_or, faulty_bodyOf]

end Stmt

/-! ## Marks and placeholders -/

namespace Grammar

/-- The numbers, texts and truth values among the tokens have a literal. -/
def Valued (tokens : List Token) : Prop :=
  ∀ token ∈ tokens, token.kind ∈ [.integer, .string, .boolean] → token.literal ≠ .nothing

theorem Valued.mono {tokens part : List Token} (h : Valued tokens)
    (hPart : ∀ token ∈ part, token ∈ tokens) : Valued part :=
  fun token hMem => h token (hPart token hMem)

/-- An expression is an empty literal only if a token has one. -/
theorem Expression.ne_nothing {level : Written.Level} {tokens : List Token} {e : Expr} :
    Expression level tokens e → Valued tokens → ∀ token, e ≠ .literal .nothing token
  | .literal word, h, token => by
      intro hEq
      have hNone := (Expr.literal.inj hEq).1
      exact h word.token (List.mem_singleton.mpr rfl) word.kind_mem hNone
  | .group opening inner closing, h, token =>
      inner.ne_nothing (h.mono fun _ hMem => by simp [hMem]) token
  | .tighter inner, h, token => inner.ne_nothing h token
  | .array opening inner closing, _, token => by
      intro hEq
      cases hEq
  | .this word, _, token => Expr.noConfusion
  | .super word dot method, _, token => Expr.noConfusion
  | .variable name, _, token => Expr.noConfusion
  | .new word name opening inner closing, _, token => Expr.noConfusion
  | .call target opening inner closing, _, token => Expr.noConfusion
  | .property target dot name, _, token => Expr.noConfusion
  | .index target opening inner closing described, _, token => Expr.noConfusion
  | .unary operator operand, _, token => Expr.noConfusion
  | .binary first operator second, _, token => Expr.noConfusion
  | .assign target equals source, _, token => Expr.noConfusion

/-- No expression of the grammar is the empty literal, if the literals have values. -/
theorem Expression.faultless {level : Written.Level} {tokens : List Token} {e : Expr}
    (h : Expression level tokens e) (hTokens : Valued tokens) :
    ¬(Stmt.expression e).Faulty := by
  rw [Stmt.faulty_expression]
  rintro ⟨token, hEq⟩
  exact h.ne_nothing hTokens token hEq

mutual

/-- The mark of a derivation tells whether a placeholder stands in the tree. -/
theorem Declaration.faulty_iff {faulty : Bool} {tokens : List Token} {stmt : Stmt} :
    Declaration faulty tokens stmt → Valued tokens → (stmt.Faulty ↔ faulty = true)
  | .classDef word name extended opening members closing, h =>
      Stmt.faulty_classDecl.trans (members.faulty_iff (h.mono fun _ hMem => by simp [hMem]))
  | .function word routine, h =>
      Stmt.faulty_funDecl.trans (routine.faulty_iff (h.mono fun _ hMem => by simp [hMem]))
  | .variable word binding, _ => by simp [Stmt.faulty_varDecl]
  | .statement inner, h => inner.faulty_iff h
  | .placeholder error, _ => by simp [Stmt.faulty_placeholder]

/-- A placeholder stands in the tree exactly if the mark says so. By induction on the derivation,
together with functions, members and statements. -/
theorem Declarations.faulty_iff {faulty : Bool} {tokens : List Token} {body : List Stmt} :
    Declarations faulty tokens body → Valued tokens →
      ((∃ stmt ∈ body, stmt.Faulty) ↔ faulty = true)
  | .none, _ => by simp
  | .more first following, h => by
      have hFirst := first.faulty_iff (h.mono fun _ hMem => by simp [hMem])
      have hFollowing := following.faulty_iff (h.mono fun _ hMem => by simp [hMem])
      simp [hFirst, hFollowing]

theorem Routine.faulty_iff {faulty : Bool} {tokens : List Token} {decl : FunDecl} :
    Routine faulty tokens decl → Valued tokens → (decl.Faulty ↔ faulty = true)
  | .intro name opening parameters closing brace inner braceEnd, h =>
      inner.faulty_iff (h.mono fun _ hMem => by simp [hMem])

theorem Members.faulty_iff {faulty : Bool} {tokens : List Token} {fields : List VarDecl}
    {methods : List FunDecl} :
    Members faulty tokens fields methods → Valued tokens →
      ((∃ method ∈ methods, method.Faulty) ↔ faulty = true)
  | .none, _ => by simp
  | .field word first following, h => following.faulty_iff (h.mono fun _ hMem => by simp [hMem])
  | .method word first following, h => by
      have hFirst := first.faulty_iff (h.mono fun _ hMem => by simp [hMem])
      have hFollowing := following.faulty_iff (h.mono fun _ hMem => by simp [hMem])
      simp [hFirst, hFollowing]

/-- A statement holds a placeholder only in the declarations inside of it. -/
theorem Statement.faulty_iff {faulty : Bool} {tokens : List Token} {stmt : Stmt} :
    Statement faulty tokens stmt → Valued tokens → (stmt.Faulty ↔ faulty = true)
  | .expression inner, h => by simp [inner.faultless h]
  | .block opening inner closing, h =>
      Stmt.faulty_block.trans (inner.faulty_iff (h.mono fun _ hMem => by simp [hMem]))
  | .branch word opening test closing first, h => by
      have hFirst := first.faulty_iff (h.mono fun _ hMem => by simp [hMem])
      simp [Stmt.faulty_branch, hFirst]
  | .choice word opening test closing first otherwise second, h => by
      have hFirst := first.faulty_iff (h.mono fun _ hMem => by simp [hMem])
      have hSecond := second.faulty_iff (h.mono fun _ hMem => by simp [hMem])
      simp [Stmt.faulty_branch, hFirst, hSecond]
  | .loop word opening test closing repeated, h =>
      Stmt.faulty_loop.trans (repeated.faulty_iff (h.mono fun _ hMem => by simp [hMem]))
  | .count word opening introduced iterator equals initial semicolon test semicolonNext step
      closing repeated, h => by
      have hBody := repeated.faulty_iff (h.mono fun _ hMem => by simp [hMem])
      have hStep := step.faultless (h.mono fun _ hMem => by simp [hMem])
      rw [← Parse.countingLoop_eq, Stmt.faulty_countingLoop, hBody, or_iff_left hStep]
  | .ret word, _ => by simp [Stmt.faulty_ret]
  | .retValue word value, _ => by simp [Stmt.faulty_ret]

end

end Grammar

/-- The tokens of a source are parsed to a program. In it stands a placeholder, at the
top or inside the body of a function, a method, a block, a branch or a loop, if and
only if a syntax error was met. -/
theorem errors_iff_placeholder {source : String} {tokens : List Token}
    (h : tokenize source = .ok tokens) :
    ∃ program, parse tokens = .ok program ∧
      (program.errors ≠ [] ↔ ∃ stmt ∈ program.statements, ∃ token,
        (Stmt.expression (.literal .nothing token)).Within stmt) := by
  obtain ⟨program, hParse⟩ := Session.parse_scanned h
  obtain ⟨kept, lost, after, -, hMoves, hDerives, hLost⟩ := parse_derives hParse
  have hValued : Grammar.Valued kept := fun token hToken =>
    tokenize_valued h (hMoves.mem_rest hToken)
  have hFaulty := hDerives.faulty_iff hValued
  refine ⟨program, hParse, ?_⟩
  rw [Ne, ← hLost]
  refine Iff.trans ?_ hFaulty.symm
  cases lost <;> simp

/-- A block that is not closed, with a faulty declaration in it. -/
def unclosedBlock : String := "\x7b var ; return 1"

/-- The placeholder of the declaration is lost with the block, which leaves its own. -/
theorem errors_iff_placeholder_unclosed :
    ∃ tokens, tokenize unclosedBlock = .ok tokens ∧
      ∃ program, parse tokens = .ok program ∧ program.errors.length = 2 ∧
        program.statements.length = 1 ∧
        (program.errors ≠ [] ↔ ∃ stmt ∈ program.statements, ∃ token,
          (Stmt.expression (.literal .nothing token)).Within stmt) := by
  have hTokens : tokenize unclosedBlock = .ok [
      ⟨.leftBrace, "\x7b", .nothing, 1, 1⟩, ⟨.varWord, "var", .nothing, 1, 3⟩,
      ⟨.semicolon, ";", .nothing, 1, 7⟩, ⟨.returnWord, "return", .nothing, 1, 9⟩,
      ⟨.integer, "1", .int 1, 1, 16⟩, ⟨.eof, "", .nothing, 1, 17⟩] := by
    with_unfolding_all rfl
  obtain ⟨program, hParse, hIff⟩ := errors_iff_placeholder hTokens
  refine ⟨_, hTokens, program, hParse, ?_, ?_, hIff⟩
  · cases hParse
    rfl
  · cases hParse
    rfl

end Mus
