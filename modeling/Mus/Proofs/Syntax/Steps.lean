import Mus.Syntax.Parser.Statement

/-! What the steps of the parsers do at a cursor whose next token is known. -/
namespace Mus

section

variable {ε σ α β : Type} {step : EStateM ε σ α} {next : α → EStateM ε σ β} {state after : σ}

/-- Going on after a result. -/
theorem bind_ok {value : α} (h : step state = .ok value after) :
    (step >>= next) state = next value after := by
  change EStateM.bind step next state = _
  unfold EStateM.bind
  rw [h]

/-- A fault is passed on. -/
theorem bind_error {fault : ε} (h : step state = .error fault after) :
    (step >>= next) state = .error fault after := by
  change EStateM.bind step next state = _
  unfold EStateM.bind
  rw [h]

end

def Cursor.AtMark (cursor : Cursor) : Prop :=
  ∃ mark rest, cursor.rest = mark :: rest ∧ mark.kind = .eof

theorem not_atMark_cons {token : Token} (hEnd : token.kind ≠ .eof) (before rest : List Token)
    (recovered : List SyntaxError) : ¬Cursor.AtMark ⟨before, token :: rest, recovered⟩ := by
  rintro ⟨mark, others, hRest, hMark⟩
  cases hRest
  exact hEnd hMark

namespace Parse

variable {α : Type}

section

variable (token : Token) (before rest : List Token) (recovered : List SyntaxError)

theorem previous_cons :
    previous ⟨token :: before, rest, recovered⟩ =
      .ok token ⟨token :: before, rest, recovered⟩ := rfl

theorem atEnd_cons :
    atEnd ⟨before, token :: rest, recovered⟩ =
      .ok (token.kind == .eof) ⟨before, token :: rest, recovered⟩ := rfl

theorem check_cons (kind : TokenKind) :
    check kind ⟨before, token :: rest, recovered⟩ =
      .ok (token.kind != .eof && token.kind == kind) ⟨before, token :: rest, recovered⟩ := rfl

variable {token}

/-- Reading on moves the next token to those before the cursor. -/
theorem advance_of_ne (hEnd : token.kind ≠ .eof) :
    advance ⟨before, token :: rest, recovered⟩ =
      .ok token ⟨token :: before, rest, recovered⟩ :=
  if_neg hEnd

/-- A token of one of the kinds is read. -/
theorem accept_of_mem {kinds : List TokenKind} (hEnd : token.kind ≠ .eof)
    (hKind : token.kind ∈ kinds) :
    accept kinds ⟨before, token :: rest, recovered⟩ =
      .ok true ⟨token :: before, rest, recovered⟩ :=
  if_pos ⟨hEnd, hKind⟩

/-- A token of another kind is left. -/
theorem accept_of_not_mem {kinds : List TokenKind} (hKind : token.kind ∉ kinds) :
    accept kinds ⟨before, token :: rest, recovered⟩ =
      .ok false ⟨before, token :: rest, recovered⟩ :=
  if_neg fun h => hKind h.2

/-- A token of the expected kind is read. -/
theorem consume_of_kind {kind : TokenKind} (expectation : Expectation)
    (hEnd : token.kind ≠ .eof) (hKind : token.kind = kind) :
    consume kind expectation ⟨before, token :: rest, recovered⟩ =
      .ok token ⟨token :: before, rest, recovered⟩ :=
  if_pos ⟨hEnd, hKind⟩

/-- Any other token is rejected, and the cursor stays. -/
theorem consume_of_not {kind : TokenKind} (expectation : Expectation)
    (hKind : ¬(token.kind ≠ .eof ∧ token.kind = kind)) :
    consume kind expectation ⟨before, token :: rest, recovered⟩ =
      .error (.rejected ⟨expectation, token⟩) ⟨before, token :: rest, recovered⟩ :=
  if_neg hKind

/-- Reading on until a closing brace or the end mark is next. -/
theorem unlessClosed_cons (yes no : Parse α) :
    (do if (← check .rightBrace) || (← atEnd) then yes else no : Parse α)
        ⟨before, token :: rest, recovered⟩ =
      if token.kind = .rightBrace ∨ token.kind = .eof then
        yes ⟨before, token :: rest, recovered⟩
      else no ⟨before, token :: rest, recovered⟩ := by
  rw [bind_ok (check_cons _ _ _ _ _), bind_ok (atEnd_cons _ _ _ _)]
  cases token.kind <;> rfl

/-- Reading on until the end mark is next. -/
theorem unlessEnded_cons (yes no : Parse α) :
    (do if ← atEnd then yes else no : Parse α) ⟨before, token :: rest, recovered⟩ =
      if token.kind = .eof then yes ⟨before, token :: rest, recovered⟩
      else no ⟨before, token :: rest, recovered⟩ := by
  rw [bind_ok (atEnd_cons _ _ _ _)]
  cases token.kind <;> rfl

end

/-! ## Programs -/

/-- At the end mark the program has ended. -/
theorem program_mark {mark : Token} (hMark : mark.kind = .eof) (fuel : Nat)
    (before rest : List Token) (recovered : List SyntaxError) :
    program (fuel + 1) ⟨before, mark :: rest, recovered⟩ =
      .ok [] ⟨before, mark :: rest, recovered⟩ := by
  rw [program, unlessEnded_cons, if_pos hMark]
  rfl

/-- A program goes on with a declaration as long as there is no end mark. -/
theorem program_cons {token : Token} (hEnd : token.kind ≠ .eof) (fuel : Nat)
    (before rest : List Token) (recovered : List SyntaxError) :
    program (fuel + 1) ⟨before, token :: rest, recovered⟩ =
      (do
        let first ← declaration fuel
        let others ← program fuel
        return first :: others) ⟨before, token :: rest, recovered⟩ := by
  rw [program, unlessEnded_cons, if_neg hEnd]

/-! ## What a step has come to -/

section

variable {cursor after : Cursor} {token : Token} {answer : Bool}

/-- What has been consumed is of the expected kind and no end mark. -/
theorem consume_ok {kind : TokenKind} {expectation : Expectation}
    (h : consume kind expectation cursor = .ok token after) :
    token.kind ≠ .eof ∧ token.kind = kind ∧ ∃ before rest recovered,
      cursor = ⟨before, token :: rest, recovered⟩ ∧ after = ⟨token :: before, rest, recovered⟩ := by
  obtain ⟨before, rest, recovered⟩ := cursor
  cases rest with
  | nil => cases h
  | cons first rest =>
      by_cases hKind : first.kind ≠ .eof ∧ first.kind = kind
      · rw [consume_of_kind before rest recovered expectation hKind.1 hKind.2] at h
        cases h
        exact ⟨hKind.1, hKind.2, before, rest, recovered, rfl, rfl⟩
      · rw [consume_of_not before rest recovered expectation hKind] at h
        cases h

/-- Whether a token was accepted can be told from the cursor. -/
theorem accept_ok {kinds : List TokenKind} (h : accept kinds cursor = .ok answer after) :
    (answer = false ∧ after = cursor) ∨ ∃ token before rest recovered, answer = true ∧
      token.kind ≠ .eof ∧ token.kind ∈ kinds ∧ cursor = ⟨before, token :: rest, recovered⟩ ∧
      after = ⟨token :: before, rest, recovered⟩ := by
  obtain ⟨before, rest, recovered⟩ := cursor
  cases rest with
  | nil => cases h
  | cons token rest =>
      by_cases hKind : token.kind ≠ .eof ∧ token.kind ∈ kinds
      · rw [accept_of_mem before rest recovered hKind.1 hKind.2] at h
        cases h
        exact Or.inr ⟨token, before, rest, recovered, rfl, hKind.1, hKind.2, rfl, rfl⟩
      · have hRun : accept kinds ⟨before, token :: rest, recovered⟩ =
            .ok false ⟨before, token :: rest, recovered⟩ := if_neg hKind
        rw [hRun] at h
        cases h
        exact Or.inl ⟨rfl, rfl⟩

/-- Looking at the next token moves nothing. -/
theorem check_ok {kind : TokenKind} (h : check kind cursor = .ok answer after) :
    after = cursor := by
  obtain ⟨before, rest, recovered⟩ := cursor
  cases rest <;> cases h
  rfl

/-- Looking for the end mark moves nothing and finds it. -/
theorem atEnd_ok (h : atEnd cursor = .ok answer after) :
    after = cursor ∧ (cursor.AtMark → answer = true) := by
  obtain ⟨before, rest, recovered⟩ := cursor
  cases rest with
  | nil => cases h
  | cons token rest =>
      rw [atEnd_cons] at h
      cases h
      refine ⟨rfl, ?_⟩
      rintro ⟨mark, others, hRest, hMark⟩
      cases hRest
      exact beq_iff_eq.mpr hMark

/-- Naming an index moves nothing. -/
theorem indexName_ok {index : Expr} {name : String} (h : indexName index cursor = .ok name after) :
    after = cursor ∧ index.describe .none = .ok name := by
  unfold indexName at h
  cases hText : index.describe .none with
  | ok text =>
      rw [hText] at h
      cases h
      exact ⟨rfl, rfl⟩
  | error fault =>
      rw [hText] at h
      cases h

end

end Parse

end Mus
