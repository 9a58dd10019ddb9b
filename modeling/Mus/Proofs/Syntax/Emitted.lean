import Mus.Proofs.Machine.Sourced
import Mus.Proofs.Syntax.Soundness
import Mus.Proofs.Token.Sourced

/-! What the parser can make of the tokens of a source. Its literals are those of the
tokens or lists of expressions, the name of a type is never that of an array, as no
token is written with a bracket inside, and counting loops become loops with a
condition. All this is seen from the grammar: whatever is parsed is derived. -/
namespace Mus

namespace Grammar

/-! ## Expressions -/

mutual

/-- An expression that is derived from tokens of a source comes from the source. By induction on the
derivation. -/
theorem Expression.sourced {level : Written.Level} {tokens : List Token} {e : Expr} :
    Expression level tokens e → (∀ token ∈ tokens, token.Sourced) → e.Sourced
  | .literal word, h =>
      have hWord := (h word.token (by simp)).plain
      ⟨Value.Plain.sourced hWord, hWord⟩
  | .this word, h => (h word.token (by simp)).plain
  | .super word dot method, h => (h word.token (by simp)).plain
  | .variable name, h => (h name.token (by simp)).plain
  | .group opening inner closing, h => inner.sourced fun token hMem => h token (by simp [hMem])
  | .array opening inner closing, h =>
      ⟨Value.allSourcedCode_map (inner.sourced fun token hMem => h token (by simp [hMem])),
        (h closing.token (by simp)).plain⟩
  | .new word name opening inner closing, h =>
      ⟨(h name.token (by simp)).plain, inner.sourced fun token hMem => h token (by simp [hMem]),
        (h closing.token (by simp)).plain⟩
  | .call target opening inner closing, h =>
      ⟨target.sourced fun token hMem => h token (by simp [hMem]),
        inner.sourced fun token hMem => h token (by simp [hMem]),
        (h closing.token (by simp)).plain⟩
  | .property target dot name, h =>
      ⟨target.sourced fun token hMem => h token (by simp [hMem]), (h name.token (by simp)).plain⟩
  | .index target opening inner closing described, h =>
      ⟨target.sourced fun token hMem => h token (by simp [hMem]),
        (h closing.token (by simp)).plain⟩
  | .unary operator operand, h =>
      ⟨(h operator.token (by simp)).plain,
        operand.sourced fun token hMem => h token (by simp [hMem])⟩
  | .binary first operator second, h =>
      ⟨first.sourced fun token hMem => h token (by simp [hMem]),
        (h operator.token (by simp)).plain,
        second.sourced fun token hMem => h token (by simp [hMem])⟩
  | .assign target equals source, h =>
      ⟨target.sourced fun token hMem => h token (by simp [hMem]),
        source.sourced fun token hMem => h token (by simp [hMem]),
        (h equals.token (by simp)).plain⟩
  | .tighter inner, h => inner.sourced h

theorem Target.sourced {tokens : List Token} {object : Expr} {name : String} :
    Target tokens object name → (∀ token ∈ tokens, token.Sourced) → object.Sourced
  | .variable word, h => (h word.token (by simp)).plain
  | .property target dot word, h => target.sourced fun token hMem => h token (by simp [hMem])
  | .index target opening inner closing described, h =>
      target.sourced fun token hMem => h token (by simp [hMem])
  | .group opening inner closing, h => inner.sourced fun token hMem => h token (by simp [hMem])

theorem Expressions.sourced {tokens : List Token} {es : List Expr} :
    Expressions tokens es → (∀ token ∈ tokens, token.Sourced) → Expr.AllSourced es
  | .none, _ => trivial
  | .one only, h => ⟨only.sourced h, trivial⟩
  | .more first comma following, h =>
      ⟨first.sourced fun token hMem => h token (by simp [hMem]),
        following.sourced fun token hMem => h token (by simp [hMem])⟩

end

/-! ## Declarations and statements -/

/-- A type is a single word in the grammar, so that it is no array type. -/
theorem Binding.sourced {tokens : List Token} {decl : VarDecl} (h : Binding tokens decl)
    (hTokens : ∀ token ∈ tokens, token.Sourced) : decl.Sourced := by
  cases h with
  | bare name arrow type =>
      have hType := (hTokens type.token (by simp)).type
      exact ⟨nofun, hType (List.mem_singleton.mp type.kind_mem)⟩
  | initialized name arrow type equals initializer =>
      have hType := (hTokens type.token (by simp)).type
      have hStart := initializer.sourced fun token hMem => hTokens token (by simp [hMem])
      exact .initialized hStart (hType (List.mem_singleton.mp type.kind_mem))

/-- The body of a counting loop is that of a block, or the one statement. -/
theorem sourced_bodyOf {stmt : Stmt} (h : stmt.Sourced) :
    Stmt.AllSourced (Written.bodyOf stmt) := by
  cases stmt with
  | block body => exact h
  | _ => exact ⟨h, trivial⟩

mutual

/-- A declaration that is derived from tokens of a source comes from the source. A placeholder is
runnable as it is. -/
theorem Declaration.sourced {faulty : Bool} {tokens : List Token} {stmt : Stmt} :
    Declaration faulty tokens stmt → (∀ token ∈ tokens, token.Sourced) → stmt.Sourced
  | .classDef word name extended opening members closing, h =>
      members.sourced fun token hMem => h token (by simp [hMem])
  | .function word routine, h => routine.sourced fun token hMem => h token (by simp [hMem])
  | .variable word binding, h => binding.sourced fun token hMem => h token (by simp [hMem])
  | .statement inner, h => (inner.sourced h).1
  | .placeholder error, _ => Or.inr ⟨error.token, rfl⟩

theorem Declarations.sourced {faulty : Bool} {tokens : List Token} {body : List Stmt} :
    Declarations faulty tokens body → (∀ token ∈ tokens, token.Sourced) → Stmt.AllSourced body
  | .none, _ => trivial
  | .more first following, h =>
      ⟨first.sourced fun token hMem => h token (by simp [hMem]),
        following.sourced fun token hMem => h token (by simp [hMem])⟩

theorem Routine.sourced {faulty : Bool} {tokens : List Token} {decl : FunDecl} :
    Routine faulty tokens decl → (∀ token ∈ tokens, token.Sourced) → decl.Sourced
  | .intro name opening parameters closing brace inner braceEnd, h =>
      inner.sourced fun token hMem => h token (by simp [hMem])

/-- The fields and the methods of a class come from the source, whatever their order. -/
theorem Members.sourced {faulty : Bool} {tokens : List Token} {fields : List VarDecl}
    {methods : List FunDecl} :
    Members faulty tokens fields methods → (∀ token ∈ tokens, token.Sourced) →
      (∀ field ∈ fields, field.Sourced) ∧ FunDecl.AllSourced methods
  | .none, _ => ⟨nofun, trivial⟩
  | .field word first following, h =>
      have hFirst := first.sourced fun token hMem => h token (by simp [hMem])
      have hRest := following.sourced fun token hMem => h token (by simp [hMem])
      ⟨List.forall_mem_cons.mpr ⟨hFirst, hRest.1⟩, hRest.2⟩
  | .method word first following, h =>
      have hRest := following.sourced fun token hMem => h token (by simp [hMem])
      ⟨hRest.1, first.sourced fun token hMem => h token (by simp [hMem]), hRest.2⟩

/-- A statement comes from a source and is no declaration. -/
theorem Statement.sourced {faulty : Bool} {tokens : List Token} {stmt : Stmt} :
    Statement faulty tokens stmt → (∀ token ∈ tokens, token.Sourced) →
      stmt.Sourced ∧ stmt.isDeclaration = false
  | .expression inner, h => ⟨(inner.sourced h).runnable, rfl⟩
  | .block opening inner closing, h =>
      ⟨inner.sourced fun token hMem => h token (by simp [hMem]), rfl⟩
  | .branch word opening test closing first, h =>
      have hTest := test.sourced fun token hMem => h token (by simp [hMem])
      ⟨⟨hTest.runnable, first.sourced fun token hMem => h token (by simp [hMem]), trivial⟩, rfl⟩
  | .choice word opening test closing first otherwise second, h =>
      have hTest := test.sourced fun token hMem => h token (by simp [hMem])
      ⟨⟨hTest.runnable, first.sourced fun token hMem => h token (by simp [hMem]),
        second.sourced fun token hMem => h token (by simp [hMem])⟩, rfl⟩
  | .loop word opening test closing repeated, h =>
      have hTest := test.sourced fun token hMem => h token (by simp [hMem])
      ⟨⟨hTest.runnable, repeated.sourced fun token hMem => h token (by simp [hMem])⟩, rfl⟩
  | .count word opening introduced iterator equals initial semicolon test semicolonNext step
      closing repeated, h => by
      have hInitial := initial.sourced fun token hMem => h token (by simp [hMem])
      have hTest := test.sourced fun token hMem => h token (by simp [hMem])
      have hStep := step.sourced fun token hMem => h token (by simp [hMem])
      have hBody := (repeated.sourced fun token hMem => h token (by simp [hMem])).1
      refine ⟨⟨.initialized hInitial (by decide), ⟨hTest.runnable, ?_, rfl⟩, trivial⟩, rfl⟩
      exact Stmt.allSourced_append (sourced_bodyOf hBody) ⟨hStep.runnable, trivial⟩
  | .ret word, _ => ⟨nofun, rfl⟩
  | .retValue word value, h => by
      have hValue := value.sourced fun token hMem => h token (by simp [hMem])
      refine ⟨fun e he => ?_, rfl⟩
      cases he
      exact hValue.runnable

end

end Grammar

/-- What is parsed from the tokens of a source is of a source. -/
theorem parse_sourced {tokens : List Token} {program : Program}
    (hTokens : ∀ token ∈ tokens, token.Sourced) (hParse : parse tokens = .ok program) :
    Stmt.AllSourced program.statements := by
  obtain ⟨kept, lost, after, -, hMoves, hDerives, -⟩ := parse_derives hParse
  exact hDerives.sourced fun token hToken => hTokens token (hMoves.mem_rest hToken)

end Mus
