import Mus.Proofs.Syntax.Bound
import Mus.Proofs.Syntax.Deriving

/-! Progress of the parser on a list of tokens with an end mark. A declaration that does
not start at the mark always comes to a result: it reads one token at least, or more
after an error. So a program is read up to the mark. It does not run against its bound
or against the end of the list, and an index has a description wherever the literals of
the tokens have one. -/
namespace Mus

/-- The cursor is reached by reading on, a least number of tokens and none of them an
end mark. -/
def Cursor.Reaches (origin : Cursor) (least : Nat) (cursor : Cursor) : Prop :=
  ∃ read, origin.Passes read cursor ∧ least ≤ read.length

namespace Cursor.Reaches

variable {origin middle cursor : Cursor} {least more : Nat}

theorem refl (cursor : Cursor) : cursor.Reaches 0 cursor :=
  ⟨[], .refl cursor, Nat.le_refl 0⟩

theorem trans (h₁ : origin.Reaches least middle) (h₂ : middle.Reaches more cursor) :
    origin.Reaches (least + more) cursor := by
  obtain ⟨read, hRead, hLeast⟩ := h₁
  obtain ⟨further, hFurther, hMore⟩ := h₂
  refine ⟨read ++ further, hRead.trans hFurther, ?_⟩
  rw [List.length_append]
  omega

/-- At least so many tokens are no longer ahead. -/
theorem length_le (h : origin.Reaches least cursor) :
    least + cursor.rest.length ≤ origin.rest.length := by
  obtain ⟨read, hRead, hLeast⟩ := h
  rw [hRead.length]
  omega

/-- The end mark is still ahead, since it is not read. -/
theorem ended (h : origin.Reaches least cursor) (hEnded : origin.Ended) : cursor.Ended := by
  obtain ⟨read, hRead, -⟩ := h
  exact hRead.ended hEnded

theorem undescribed (h : origin.Reaches least cursor) (hCursor : cursor.Undescribed) :
    origin.Undescribed := by
  obtain ⟨read, hRead, -⟩ := h
  exact hRead.undescribed hCursor

end Cursor.Reaches

/-- In front of an end mark there is always a next token. -/
theorem Cursor.Ended.exists_cons {cursor : Cursor} (h : cursor.Ended) :
    ∃ token rest, cursor = ⟨cursor.before, token :: rest, cursor.recovered⟩ := by
  obtain ⟨before, rest, recovered⟩ := cursor
  obtain ⟨mark, hMark, -⟩ := h
  cases rest with
  | nil => cases hMark
  | cons token rest => exact ⟨token, rest, rfl⟩

namespace Parse

variable {α β : Type} {cursor : Cursor}

/-- The parser comes to a good result, or to an index without a description. It rejects
no token. -/
def Surely (good : α → Cursor → Prop) (parser : Parse α) (cursor : Cursor) : Prop :=
  match parser cursor with
  | .ok value after => good value after
  | .error (.indexText fault) _ => fault = .tooManyDigits ∧ cursor.Undescribed
  | .error _ _ => False

/-- What surely comes to an answer has not run against its bound. -/
theorem settled_of_surely {good : α → Cursor → Prop} {parser : Parse α}
    (h : Surely good parser cursor) : Settled (parser cursor) := by
  intro after hRun
  unfold Surely at h
  rw [hRun] at h
  exact h

theorem surely_cases {good : α → Cursor → Prop} {parser : Parse α}
    (h : Surely good parser cursor) :
    (∃ value after, parser cursor = .ok value after ∧ good value after) ∨
      (∃ after, parser cursor = .error (.indexText .tooManyDigits) after) ∧
        cursor.Undescribed := by
  unfold Surely at h
  split at h
  · next value after hRun => exact Or.inl ⟨value, after, hRun, h⟩
  · next fault after hRun =>
    obtain ⟨rfl, hBlamed⟩ := h
    exact Or.inr ⟨⟨after, hRun⟩, hBlamed⟩
  · exact absurd h id

/-- Parsers that surely come to a result do so one after the other. -/
theorem surely_bind {least : Nat} {good : β → Cursor → Prop} {parser : Parse α}
    {next : α → Parse β}
    (hParser : Surely (fun _ after => cursor.Reaches least after) parser cursor)
    (hNext : ∀ value after, cursor.Reaches least after → Surely good (next value) after) :
    Surely good (parser >>= next) cursor := by
  unfold Surely at hParser
  cases hRun : parser cursor with
  | ok value after =>
      rw [hRun] at hParser
      have hMore := hNext value after hParser
      unfold Surely at hMore ⊢
      rw [bind_ok hRun]
      split at hMore
      · exact hMore
      · exact ⟨hMore.1, hParser.undescribed hMore.2⟩
      · exact hMore
  | error fault after =>
      rw [hRun] at hParser
      unfold Surely
      rw [bind_error hRun]
      cases fault <;> exact hParser

/-- A declaration recovers from every rejected token, so that none gets out of it. -/
theorem declaration_ne_rejected (fuel : Nat) (cursor after : Cursor) (error : SyntaxError) :
    declaration fuel cursor ≠ .error (.rejected error) after := by
  intro h
  cases fuel with
  | zero =>
      unfold declaration at h
      cases h
  | succ fuel =>
      unfold declaration at h
      cases hRun : plainDeclaration fuel cursor with
      | ok stmt middle =>
          rw [recovering_of_not_rejected hRun fun _ _ h => by cases h] at h
          cases h
      | error fault middle =>
          cases fault with
          | rejected error =>
              rcases recovering_of_rejected hRun with
                ⟨read, finish, hAnswer, -⟩ | ⟨finish, hAnswer, -⟩
              · rw [hAnswer] at h
                cases h
              · rw [hAnswer] at h
                cases h
          | pastEnd | indexText | outOfFuel =>
              rw [recovering_of_not_rejected hRun fun _ _ h => by cases h] at h
              cases h

/-- Where an end mark follows and is not next, a declaration comes to a result and reads
on. -/
theorem surely_declaration {fuel : Nat} (hEnded : cursor.Ended) (hOff : ¬cursor.AtMark)
    (hFuel : 10 * cursor.rest.length + 7 ≤ fuel) :
    Surely (fun _ after => cursor.Reaches 1 after) (declaration fuel) cursor := by
  have hDerives : Derives _ _ _ _ (declaration fuel) cursor := declaration_derives hOff
  unfold Derives at hDerives
  unfold Surely
  split at hDerives
  · next stmt after hRun =>
    obtain ⟨hLength, kept, lost, hMoves, -⟩ := hDerives
    obtain ⟨read, hRead, -⟩ := hMoves.passes
    have := hRead.length
    rw [hRun]
    exact ⟨read, hRead, by omega⟩
  · next error after hRun => exact absurd hRun (declaration_ne_rejected fuel cursor after error)
  · next fault after hRun =>
    rw [hRun]
    exact hDerives
  · exact absurd hEnded hDerives
  · exact absurd hFuel hDerives

/-- A program is read up to the end mark, whatever errors it has, and each of
its statements has at least one token. -/
theorem surely_program {fuel : Nat} (hEnded : cursor.Ended)
    (hFuel : 10 * cursor.rest.length + 8 ≤ fuel) :
    Surely (fun statements after => cursor.Reaches statements.length after ∧ after.AtMark)
      (program fuel) cursor := by
  induction fuel generalizing cursor with
  | zero => omega
  | succ fuel ih =>
      obtain ⟨token, rest, hCursor⟩ := hEnded.exists_cons
      have hRest : cursor.rest = token :: rest := congrArg Cursor.rest hCursor
      unfold program Surely
      rw [hCursor, unlessEnded_cons]
      by_cases hEnd : token.kind = .eof
      · rw [if_pos hEnd, ← hCursor]
        exact ⟨.refl cursor, token, rest, hRest, hEnd⟩
      · rw [if_neg hEnd, ← hCursor]
        have hOff : ¬cursor.AtMark := hCursor ▸ not_atMark_cons hEnd _ _ _
        refine surely_bind (surely_declaration hEnded hOff (by omega)) fun first after hAfter => ?_
        have := hAfter.length_le
        have hOthers := ih (hAfter.ended hEnded) (by omega)
        unfold Surely at hOthers ⊢
        split at hOthers
        · next others finish hRun =>
          obtain ⟨hFinish, hMark⟩ := hOthers
          rw [bind_ok hRun]
          refine ⟨?_, hMark⟩
          rw [List.length_cons, Nat.add_comm]
          exact hAfter.trans hFinish
        · next fault finish hRun =>
          rw [bind_error hRun]
          exact hOthers
        · exact absurd hOthers id

/-- The bound of the parser is enough for a program. -/
theorem surely_program_fuelFor (hEnded : cursor.Ended) :
    Surely (fun statements after => cursor.Reaches statements.length after ∧ after.AtMark)
      (program (fuelFor cursor)) cursor := by
  refine surely_program hEnded ?_
  unfold fuelFor
  omega

end Parse

theorem parse_of_ok {tokens : List Token} {statements : List Stmt} {after : Cursor}
    (hRun : Parse.program (Parse.fuelFor (.ofTokens tokens)) (.ofTokens tokens) =
      .ok statements after) :
    parse tokens = .ok ⟨statements, after.recovered.reverse⟩ := by
  unfold parse
  dsimp only
  rw [hRun]

theorem parse_of_error {tokens : List Token} {fault : ParseFault} {after : Cursor}
    (hRun : Parse.program (Parse.fuelFor (.ofTokens tokens)) (.ofTokens tokens) =
      .error fault after) :
    parse tokens = .error fault := by
  unfold parse
  dsimp only
  rw [hRun]

/-- A list of tokens with an end mark and with literals that have descriptions
is parsed to a program, with all its syntax errors recovered from. -/
theorem parse_total {tokens : List Token} (hEnd : ∃ token ∈ tokens, token.kind = .eof)
    (hDescribed : ∀ token ∈ tokens, token.Described) : ∃ program, parse tokens = .ok program := by
  have hEnded : (Cursor.ofTokens tokens).Ended := hEnd
  rcases Parse.surely_cases (Parse.surely_program_fuelFor hEnded) with
    ⟨statements, after, hRun, -⟩ | ⟨-, token, hToken, hNot⟩
  · exact ⟨_, parse_of_ok hRun⟩
  · exact absurd (hDescribed token ((List.takeWhile_sublist _).subset hToken)) hNot

end Mus
