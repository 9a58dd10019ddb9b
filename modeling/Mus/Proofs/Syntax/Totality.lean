import Mus.Proofs.Syntax.Progress
import Mus.Proofs.Token.Scanned

/-! What parsing a list of tokens with an end mark comes to, whatever the tokens
are. The parser ends at the first end mark and does not depend on what lies
behind it. Each declaration, at whatever depth, reads on from where it starts and
not beyond that mark. The one fault is an index without a description, for which
some literal before the mark must hold a number with too many digits. -/
namespace Mus

/-- The place after the first tokens of a list. -/
def Cursor.past (tokens : List Token) (position : Nat) (recovered : List SyntaxError) : Cursor :=
  ⟨(tokens.take position).reverse, tokens.drop position, recovered⟩

/-- The place after the tokens that have been read. -/
theorem Cursor.past_append (read rest : List Token) (recovered : List SyntaxError) :
    Cursor.past (read ++ rest) read.length recovered = ⟨read.reverse, rest, recovered⟩ := by
  simp [Cursor.past]

theorem Cursor.past_zero (tokens : List Token) : Cursor.past tokens 0 [] = .ofTokens tokens := rfl

/-! ## Places up to the first end mark -/

section

variable {front behind : List Token} {mark : Token} {position : Nat}

/-- The tokens up to the first end mark, where it is known. -/
theorem upToMark_append (hFront : ∀ token ∈ front, token.kind ≠ .eof) (hMark : mark.kind = .eof) :
    upToMark (front ++ mark :: behind) = front ++ [mark] := by
  induction front with
  | nil => exact if_pos hMark
  | cons token front ih =>
      have hToken : token.kind ≠ .eof := hFront token (List.mem_cons_self ..)
      have hRest : ∀ other ∈ front, other.kind ≠ .eof := fun other hOther =>
        hFront other (List.mem_cons_of_mem _ hOther)
      simp [upToMark, hToken, ih hRest]

/-- Tokens other than end marks are read from those in front of the first mark. -/
theorem exists_of_append_eq {read rest : List Token} (hMark : mark.kind = .eof)
    (hRead : ∀ token ∈ read, token.kind ≠ .eof) (h : read ++ rest = front ++ mark :: behind) :
    ∃ more, front = read ++ more ∧ rest = more ++ mark :: behind := by
  rcases List.append_eq_append_iff.mp h with hFront | ⟨extra, hExtra, hRest⟩
  · exact hFront
  · cases extra with
    | nil => exact ⟨[], by simpa using hExtra.symm, by simpa using hRest.symm⟩
    | cons token extra =>
        rw [List.cons_append, List.cons.injEq] at hRest
        refine absurd (hRest.1 ▸ hMark) (hRead token ?_)
        rw [hExtra]
        exact List.mem_append_right _ (List.mem_cons_self ..)

namespace Cursor

/-- The tokens before and after a place up to the first end mark. -/
theorem past_eq (h : position ≤ front.length) (recovered : List SyntaxError) :
    past (front ++ mark :: behind) position recovered =
      ⟨(front.take position).reverse, front.drop position ++ mark :: behind, recovered⟩ := by
  simp [past, List.take_append_of_le_length h, List.drop_append_of_le_length h]

/-- A place in front of the end mark is the same one in the list up to the mark. -/
theorem past_changed (hFront : ∀ token ∈ front, token.kind ≠ .eof) (hMark : mark.kind = .eof)
    (h : position ≤ front.length) (recovered : List SyntaxError) :
    (past (front ++ mark :: behind) position recovered).changed upToMark =
      past (front ++ [mark]) position recovered := by
  have hDropped : ∀ token ∈ front.drop position, token.kind ≠ .eof := fun token hToken =>
    hFront token (List.mem_of_mem_drop hToken)
  rw [past_eq h, past_eq h, changed, upToMark_append hDropped hMark]

theorem past_ended (hMark : mark.kind = .eof) (h : position ≤ front.length)
    (recovered : List SyntaxError) :
    (past (front ++ mark :: behind) position recovered).Ended := by
  refine ⟨mark, ?_, hMark⟩
  simp [past_eq h]

/-- The tokens up to the end mark are those in front of it. -/
theorem past_ahead (hFront : ∀ token ∈ front, token.kind ≠ .eof) (hMark : mark.kind = .eof)
    (h : position ≤ front.length) (recovered : List SyntaxError) :
    (past (front ++ mark :: behind) position recovered).ahead = front.drop position := by
  have hDropped : ∀ token ∈ front.drop position, (token.kind != .eof) = true := fun token hToken =>
    bne_iff_ne.mpr (hFront token (List.mem_of_mem_drop hToken))
  rw [past_eq h, ahead, List.takeWhile_append_of_pos hDropped]
  simp [hMark]

/-- The end mark is next at its own place only. -/
theorem past_atMark_iff (hFront : ∀ token ∈ front, token.kind ≠ .eof) (hMark : mark.kind = .eof)
    (h : position ≤ front.length) (recovered : List SyntaxError) :
    (past (front ++ mark :: behind) position recovered).AtMark ↔ position = front.length := by
  rw [past_eq h]
  rcases Nat.lt_or_eq_of_le h with hLess | rfl
  · rw [List.drop_eq_getElem_cons hLess]
    constructor
    · rintro ⟨token, rest, hRest, hKind⟩
      cases hRest
      exact absurd hKind (hFront _ (List.getElem_mem hLess))
    · omega
  · simp [AtMark, hMark]

/-- What is reached from a place up to the mark is a place up to the mark. -/
theorem Reaches.exists_past (hMark : mark.kind = .eof) (h : position ≤ front.length) {least : Nat}
    {recovered : List SyntaxError} {after : Cursor}
    (hReaches : (past (front ++ mark :: behind) position recovered).Reaches least after) :
    ∃ next, position + least ≤ next ∧ next ≤ front.length ∧
      after = past (front ++ mark :: behind) next after.recovered := by
  obtain ⟨read, ⟨hRest, hBefore, hEnd⟩, hLeast⟩ := hReaches
  obtain ⟨before, rest, _⟩ := after
  rw [past_eq h] at hRest hBefore
  obtain ⟨more, hDrop, rfl⟩ := exists_of_append_eq hMark hEnd hRest.symm
  have hSplit : front = (front.take position ++ read) ++ more := by
    rw [List.append_assoc, ← hDrop, List.take_append_drop]
  have hPosition : (front.take position ++ read).length = position + read.length := by
    rw [List.length_append, List.length_take, Nat.min_eq_left h]
  have hLength : front.length = position + read.length + more.length := by
    rw [hSplit, List.length_append, hPosition]
  refine ⟨position + read.length, by omega, by omega, ?_⟩
  have hTokens : front ++ mark :: behind =
      (front.take position ++ read) ++ (more ++ mark :: behind) := by
    rw [← List.append_assoc, ← hSplit]
  rw [← hPosition, hTokens, past_append, List.reverse_append]
  cases hBefore
  rfl

end Cursor

end

/-! ## The answers of the parsers -/

namespace Parse

section

variable {α : Type} {front behind : List Token} {mark : Token} {position : Nat}
  {recovered : List SyntaxError}

/-- A parser that surely comes to a result faults only for a literal without a
description in front of the mark. -/
theorem cases_of_surely {good : α → Cursor → Prop} {parser : Parse α}
    (hFront : ∀ token ∈ front, token.kind ≠ .eof) (hMark : mark.kind = .eof)
    (h : position ≤ front.length)
    (hSurely : Surely good parser (.past (front ++ mark :: behind) position recovered)) :
    (∃ value after, parser (.past (front ++ mark :: behind) position recovered) =
        .ok value after ∧ good value after) ∨
      (∃ after, parser (.past (front ++ mark :: behind) position recovered) =
        .error (.indexText .tooManyDigits) after) ∧ ∃ token ∈ front, ¬token.Described := by
  refine (surely_cases hSurely).imp_right (And.imp_right ?_)
  rintro ⟨token, hToken, hNot⟩
  rw [Cursor.past_ahead hFront hMark h] at hToken
  exact ⟨token, List.mem_of_mem_drop hToken, hNot⟩

/-- A bound that is enough at a place is enough there if nothing lies behind the
mark. -/
theorem fuelFor_past_le (h : position ≤ front.length) :
    fuelFor (.past (front ++ [mark]) position recovered) ≤
      fuelFor (.past (front ++ mark :: behind) position recovered) := by
  simp only [fuelFor, Cursor.past_eq h, List.length_append, List.length_cons, List.length_nil]
  omega

/-- As long as tokens are left in front of the mark, the mark is not next. -/
theorem past_not_atMark (hFront : ∀ token ∈ front, token.kind ≠ .eof) (hMark : mark.kind = .eof)
    (h : position < front.length) :
    ¬(Cursor.past (front ++ mark :: behind) position recovered).AtMark := by
  rw [Cursor.past_atMark_iff hFront hMark (Nat.le_of_lt h)]
  omega

/-- Within the bound of the parser, a declaration before the mark comes to a
result and reads on. -/
theorem surely_declaration_past {fuel : Nat} (hFront : ∀ token ∈ front, token.kind ≠ .eof)
    (hMark : mark.kind = .eof) (h : position < front.length)
    (hFuel : fuelFor (.past (front ++ mark :: behind) position recovered) ≤ fuel) :
    Surely (fun _ after =>
        (Cursor.past (front ++ mark :: behind) position recovered).Reaches 1 after)
      (declaration fuel) (.past (front ++ mark :: behind) position recovered) := by
  refine surely_declaration (Cursor.past_ended hMark (Nat.le_of_lt h) recovered)
    (past_not_atMark hFront hMark h) ?_
  unfold fuelFor at hFuel
  omega

/-- A declaration reads at least one token and does not read beyond the end mark, unless an index
has no description. -/
theorem declaration_progress {fuel : Nat} (hFront : ∀ token ∈ front, token.kind ≠ .eof)
    (hMark : mark.kind = .eof) (h : position < front.length)
    (hSettled : Settled (declaration fuel (.past (front ++ mark :: behind) position recovered))) :
    (∃ stmt next errors, declaration fuel (.past (front ++ mark :: behind) position recovered) =
        .ok stmt (.past (front ++ mark :: behind) next errors) ∧
        position < next ∧ next ≤ front.length) ∨
      (∃ after, declaration fuel (.past (front ++ mark :: behind) position recovered) =
        .error (.indexText .tooManyDigits) after) ∧ ∃ token ∈ front, ¬token.Described := by
  have hLe : position ≤ front.length := Nat.le_of_lt h
  -- The answer is that under a bound which is large enough, so it is never one of the bound.
  let bound := max fuel (fuelFor (.past (front ++ mark :: behind) position recovered))
  have hMore := (extends_declaration behindMark_id (Nat.le_max_left _ _ : fuel ≤ bound)
    (past_not_atMark hFront hMark h)).eq_of_settled hSettled
  have hBound : fuelFor (.past (front ++ mark :: behind) position recovered) ≤ bound :=
    Nat.le_max_right _ _
  have hSurely := surely_declaration_past hFront hMark h hBound
  rw [← hMore]
  rcases cases_of_surely hFront hMark hLe hSurely with ⟨stmt, after, hRun, hReaches⟩ | hError
  · obtain ⟨next, hNext, hLast, hAfter⟩ := hReaches.exists_past hMark hLe
    exact Or.inl ⟨stmt, next, after.recovered, hAfter ▸ hRun, by omega, hLast⟩
  · exact Or.inr hError

/-- Within its bound, a program comes to the end mark or to an index without a description. -/
theorem program_answer (hFront : ∀ token ∈ front, token.kind ≠ .eof) (hMark : mark.kind = .eof)
    (behind : List Token) :
    (∃ statements errors, program (fuelFor (.ofTokens (front ++ mark :: behind)))
        (.ofTokens (front ++ mark :: behind)) =
        .ok statements (.past (front ++ mark :: behind) front.length errors) ∧
        statements.length ≤ front.length) ∨
      (∃ after, program (fuelFor (.ofTokens (front ++ mark :: behind)))
        (.ofTokens (front ++ mark :: behind)) =
        .error (.indexText .tooManyDigits) after) ∧ ∃ token ∈ front, ¬token.Described := by
  have hZero : 0 ≤ front.length := Nat.zero_le _
  have hSurely := surely_program_fuelFor
    (Cursor.past_ended hMark hZero [] : (Cursor.past (front ++ mark :: behind) 0 []).Ended)
  rcases cases_of_surely hFront hMark hZero hSurely with
    ⟨statements, after, hRun, hReaches, hAtMark⟩ | hError
  · obtain ⟨next, hNext, hLast, hAfter⟩ := hReaches.exists_past hMark hZero
    rw [hAfter, Cursor.past_atMark_iff hFront hMark hLast] at hAtMark
    subst hAtMark
    exact Or.inl ⟨statements, after.recovered, hAfter ▸ hRun, by omega⟩
  · exact Or.inr hError

end

end Parse

/-- What lies behind the first end mark is of no account. -/
theorem parse_append_mark {front : List Token} {mark : Token}
    (hFront : ∀ token ∈ front, token.kind ≠ .eof) (hMark : mark.kind = .eof)
    (behind : List Token) : parse (front ++ mark :: behind) = parse (front ++ [mark]) := by
  have hZero : 0 ≤ front.length := Nat.zero_le _
  have hSettled := Parse.settled_of_surely (Parse.surely_program_fuelFor
    (Cursor.past_ended hMark hZero [] : (Cursor.past (front ++ mark :: behind) 0 []).Ended))
  have hCutSettled := Parse.settled_of_surely (Parse.surely_program_fuelFor
    (Cursor.past_ended hMark hZero [] : (Cursor.past (front ++ [mark]) 0 []).Ended))
  have hBound : Parse.fuelFor (.past (front ++ [mark]) 0 []) ≤
      Parse.fuelFor (.past (front ++ mark :: behind) 0 []) := Parse.fuelFor_past_le hZero
  have hMore := (Parse.extends_program behindMark_id hBound _).eq_of_settled hCutSettled
  have hCut := Parse.extends_program behindMark_upToMark (Nat.le_refl _) _ hSettled
  rw [Cursor.past_changed hFront hMark hZero, hMore] at hCut
  unfold parse
  dsimp only
  rw [← Cursor.past_zero, ← Cursor.past_zero, hCut]
  cases Parse.program (Parse.fuelFor (.past (front ++ mark :: behind) 0 []))
    (.past (front ++ mark :: behind) 0 []) <;> rfl

/-- What parsing comes to with these tokens in front of the first end mark and
these behind it. -/
structure ParsedToMark (front : List Token) (mark : Token) (behind : List Token) : Prop where
  /-- The answer is the same whatever follows the mark. -/
  free : ∀ other, parse (front ++ mark :: other) = parse (front ++ mark :: behind)
  /-- The parser ends at the mark and returns at most one statement for each
  token in front of it. -/
  answer : ∃ statements errors,
    Parse.program (Parse.fuelFor (.ofTokens (front ++ mark :: behind)))
      (.ofTokens (front ++ mark :: behind)) =
      .ok statements (.past (front ++ mark :: behind) front.length errors) ∧
    parse (front ++ mark :: behind) = .ok ⟨statements, errors.reverse⟩ ∧
    statements.length ≤ front.length
  /-- A declaration before the mark comes to an answer. -/
  settled : ∀ position recovered fuel, position < front.length →
    Parse.fuelFor (.past (front ++ mark :: behind) position recovered) ≤ fuel →
    Parse.Settled (Parse.declaration fuel (.past (front ++ mark :: behind) position recovered))
  /-- Its answer is a statement at a later place, at most that of the mark. -/
  progress : ∀ position recovered fuel, position < front.length →
    Parse.Settled (Parse.declaration fuel (.past (front ++ mark :: behind) position recovered)) →
    ∃ stmt next errors,
      Parse.declaration fuel (.past (front ++ mark :: behind) position recovered) =
        .ok stmt (.past (front ++ mark :: behind) next errors) ∧
      position < next ∧ next ≤ front.length

/-- Every list of tokens with an end mark is parsed up to the first one, if the
literals in front of it have a description. Those of a source do, by
`tokenize_described`. -/
theorem parsed_to_mark {front : List Token} {mark : Token}
    (hFront : ∀ token ∈ front, token.kind ≠ .eof) (hMark : mark.kind = .eof)
    (hDescribed : ∀ token ∈ front, token.Described) (behind : List Token) :
    ParsedToMark front mark behind where
  free other := by
    rw [parse_append_mark hFront hMark other, parse_append_mark hFront hMark behind]
  answer := by
    rcases Parse.program_answer hFront hMark behind with
      ⟨statements, errors, hRun, hLength⟩ | ⟨-, token, hToken, hNot⟩
    · exact ⟨statements, errors, hRun, parse_of_ok hRun, hLength⟩
    · exact absurd (hDescribed token hToken) hNot
  settled position recovered fuel h hFuel :=
    Parse.settled_of_surely (Parse.surely_declaration_past hFront hMark h hFuel)
  progress position recovered fuel h hSettled :=
    (Parse.declaration_progress hFront hMark h hSettled).resolve_right
      fun ⟨_, token, hToken, hNot⟩ => hNot (hDescribed token hToken)

def bareToken (kind : TokenKind) (lexeme : String) (column : Int) : Token :=
  ⟨kind, lexeme, .nothing, 1, column⟩

/-- A class that breaks off in a method, where a variable lacks its name. -/
def brokenClass : List Token :=
  [bareToken .classWord "class" 1, bareToken .identifier "C" 7, bareToken .leftBrace "\x7b" 9,
    bareToken .funWord "fun" 11, bareToken .identifier "f" 15, bareToken .leftParen "(" 16,
    bareToken .rightParen ")" 17, bareToken .leftBrace "\x7b" 19, bareToken .varWord "var" 21,
    bareToken .rightBracket "]" 25]

/-- The sample is parsed up to its end mark although it breaks off inside a class. -/
theorem brokenClass_parsed_to_mark :
    (∀ token ∈ brokenClass, token.kind ≠ .eof) ∧ (∀ token ∈ brokenClass, token.Described) ∧
      ParsedToMark brokenClass (bareToken .eof "" 26) [bareToken .rightBrace "\x7d" 26] := by
  have hFront : ∀ token ∈ brokenClass, token.kind ≠ .eof := by
    simp [brokenClass, bareToken]
  have hPlain : ∀ token ∈ brokenClass, token.Plain := by
    simp [brokenClass, bareToken, Token.Plain, Value.Plain]
  have hDescribed : ∀ token ∈ brokenClass, token.Described := fun token hToken =>
    Value.Plain.described (hPlain token hToken)
  exact ⟨hFront, hDescribed, parsed_to_mark hFront rfl hDescribed _⟩

end Mus
