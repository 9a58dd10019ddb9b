import Mus.Proofs.Syntax.Carrying
import Mus.Proofs.Syntax.Totality

/-! Two lists of tokens that are parsed without syntax errors can be parsed as one:
the statements of the first come before those of the second. The second list may
not start with a token with which an expression can go on. -/
namespace Mus

namespace Parse

/-! ## Programs in longer lists -/

section

variable {base following : List Token} {cursor : Cursor}

/-- Parsing a program only adds to the errors that were recovered from. -/
theorem adds_program (fuel : Nat) (cursor : Cursor) :
    cursor.recovered <:+ (reached (program fuel cursor)).recovered := by
  have hEnds : Ends [Token.nowhere] := ⟨_, _, rfl, by decide⟩
  exact (@carries_program [] _ hEnds fuel cursor).adds

/-- The answer of a program, followed by what stands in the place of the end mark. -/
def continued (base following : List Token) (fuel : Nat) :
    EStateM.Result ParseFault Cursor (List Stmt) → EStateM.Result ParseFault Cursor (List Stmt)
  | .ok statements after =>
      (do return statements ++ (← program fuel)) (after.within base following)
  | .error fault after => .error fault (after.within base following)

/-- Where a program has ended without a statement, the rest is parsed from there. -/
theorem continued_nil (fuel : Nat) (cursor : Cursor) :
    continued base following fuel (.ok [] cursor) =
      program fuel (cursor.within base following) := by
  unfold continued
  cases hRun : program fuel (cursor.within base following) with
  | ok statements after => exact bind_ok hRun
  | error fault after => exact bind_error hRun

/-- A statement in front of a program stands in front of all that follows. -/
theorem continued_cons {fuel : Nat} {stmt : Stmt} {parser more : Parse (List Stmt)}
    {place : Cursor} (h : more place = continued base following fuel (parser cursor)) :
    (do return stmt :: (← more)) place =
      continued base following fuel ((do return stmt :: (← parser)) cursor) := by
  cases hRun : parser cursor with
  | error fault after =>
      rw [hRun] at h
      rw [bind_error hRun]
      exact bind_error h
  | ok statements after =>
      rw [hRun] at h
      rw [bind_ok hRun]
      change more place = (do return statements ++ (← program fuel)) (after.within _ _) at h
      change _ = (do return (stmt :: statements) ++ (← program fuel)) (after.within _ _)
      cases hRest : program fuel (after.within base following) with
      | ok others finish =>
          rw [bind_ok hRest] at h ⊢
          exact bind_ok h
      | error fault finish =>
          rw [bind_error hRest] at h ⊢
          exact bind_error h

/-- Parsing goes on with what stands in the place of the end mark. -/
theorem program_within (hEnds : Ends following) {first second : Nat}
    (hLasting : Lasting False (program first cursor))
    (hQuiet : (reached (program first cursor)).recovered = cursor.recovered)
    (hSettled : ∀ statements after, program first cursor = .ok statements after →
      Settled (program second (after.within base following))) :
    program (first + second) (cursor.within base following) =
      continued base following second (program first cursor) := by
  induction first generalizing cursor with
  | zero => exact absurd hLasting id
  | succ first ih =>
      obtain ⟨before, rest, recovered⟩ := cursor
      rw [Nat.add_right_comm]
      cases rest with
      | nil => exact absurd hLasting id
      | cons token rest =>
          by_cases hMark : token.kind = .eof
          · -- The first list is read, and the bound that is left is large enough.
            have hHere := program_mark hMark first before rest recovered
            rw [hHere, continued_nil]
            exact (extends_program behindMark_id (by omega) _).eq_of_settled (hSettled _ _ hHere)
          · rw [within_cons hMark, program_cons hMark, ← within_cons hMark]
            rw [program_cons hMark] at hLasting hQuiet hSettled ⊢
            have hAdds := (@carries_declaration base following hEnds first _
              (not_atMark_cons hMark before rest recovered)).adds
            have hSame := @declaration_within base following hEnds first (first + second) token
              hMark before rest recovered (Nat.le_add_right ..)
            cases hDeclaration : declaration first ⟨before, token :: rest, recovered⟩ with
            | error fault middle =>
                rw [bind_error hDeclaration] at hLasting hQuiet ⊢
                rw [hDeclaration] at hSame
                exact bind_error (hSame (by cases fault <;> exact hLasting) hQuiet)
            | ok stmt middle =>
                rw [bind_ok hDeclaration] at hLasting hQuiet hSettled ⊢
                rw [hDeclaration] at hAdds hSame
                rw [reached_map] at hQuiet
                obtain ⟨hMiddle, hLast⟩ :=
                  eq_of_suffixes hAdds (adds_program first middle) hQuiet
                rw [bind_ok (hSame (fun h => absurd h id) hMiddle)]
                refine continued_cons (ih (lasting_of_map hLasting) hLast ?_)
                exact fun others after hRun => hSettled (stmt :: others) after (bind_ok hRun)

end

/-! ## Runs -/

def run (tokens : List Token) : EStateM.Result ParseFault Cursor (List Stmt) :=
  program (fuelFor (.ofTokens tokens)) (.ofTokens tokens)

def outcome {α : Type} : EStateM.Result ParseFault Cursor α → Except ParseFault α
  | .ok value _ => .ok value
  | .error fault _ => .error fault

/-- From the cursor on, the parser comes to this outcome without an error that is
recovered from. -/
structure Yields {α : Type} (parser : Parse α) (cursor : Cursor)
    (result : Except ParseFault α) : Prop where
  settled : Settled (parser cursor)
  quiet : (reached (parser cursor)).recovered = cursor.recovered
  outcome_eq : outcome (parser cursor) = result

/-- How an outcome is read off a single answer of the parser. -/
theorem Yields.of_eq {α : Type} {parser : Parse α} {cursor : Cursor}
    {result : Except ParseFault α} {answer : EStateM.Result ParseFault Cursor α}
    (h : parser cursor = answer) (hSettled : Settled answer)
    (hQuiet : (reached answer).recovered = cursor.recovered) (hOutcome : outcome answer = result) :
    Yields parser cursor result := by
  subst h
  exact ⟨hSettled, hQuiet, hOutcome⟩

end Parse

/-- The syntax errors that parsing recovers from, also where a fault ends it. -/
def caught (tokens : List Token) : List SyntaxError :=
  (Parse.reached (Parse.run tokens)).recovered.reverse

/-- Parsing is the outcome of the run, with the errors that were caught on the way. -/
theorem parse_eq_outcome (tokens : List Token) :
    parse tokens = (Parse.outcome (Parse.run tokens)).map fun statements =>
      ⟨statements, caught tokens⟩ := by
  unfold parse caught Parse.run
  dsimp only
  split
  · next hRun => rw [hRun]; rfl
  · next hRun => rw [hRun]; rfl

namespace Parse

section

variable {tokens : List Token} {mark : Token} (hTokens : ∀ token ∈ tokens, token.kind ≠ .eof)
  (hMark : mark.kind = .eof)

include hTokens hMark

/-- A run ends at the end mark, or at the fault of an index. -/
theorem run_cases :
    (∃ statements recovered, run (tokens ++ [mark]) =
        .ok statements ⟨tokens.reverse, [mark], recovered⟩) ∨
      ∃ after, run (tokens ++ [mark]) = .error (.indexText .tooManyDigits) after := by
  unfold run
  rcases program_answer hTokens hMark [] with ⟨statements, errors, hRun, -⟩ | ⟨⟨after, hRun⟩, -⟩
  · rw [Cursor.past_eq (Nat.le_refl _), List.take_length, List.drop_length] at hRun
    exact Or.inl ⟨statements, errors, hRun⟩
  · exact Or.inr ⟨after, hRun⟩

/-- The run over the first list, which is without an error, has a lasting answer. -/
theorem run_lasting : Lasting False (run (tokens ++ [mark])) := by
  rcases run_cases hTokens hMark with ⟨statements, recovered, hRun⟩ | ⟨after, hRun⟩
  · rw [hRun]
    exact fun h => absurd h id
  · rw [hRun]
    exact trivial

/-- Tokens without a syntax error start with one that starts a declaration. -/
theorem mem_declarationStarts_of_caught (hCaught : caught (tokens ++ [mark]) = []) :
    ∀ token ∈ tokens.head?, token.kind ∈ declarationStarts := by
  intro token hHead
  obtain ⟨rest, rfl⟩ : ∃ rest, tokens = token :: rest := ⟨_, List.eq_cons_of_mem_head? hHead⟩
  by_contra hKind
  obtain ⟨fuel, hFuel⟩ : ∃ fuel, fuelFor (.ofTokens (token :: rest ++ [mark])) = fuel + 1 + 1 :=
    ⟨fuelFor (.ofTokens (token :: rest ++ [mark])) - 2, by unfold fuelFor; omega⟩
  have hRun : run (token :: rest ++ [mark]) = (do
      let first ← declaration (fuel + 1)
      let others ← program (fuel + 1)
      return first :: others) ⟨[], token :: (rest ++ [mark]), []⟩ := by
    unfold run
    rw [hFuel]
    exact program_cons (hTokens token (List.mem_cons_self ..)) (fuel + 1) [] (rest ++ [mark]) []
  obtain ⟨fault, hRefused, hText⟩ :=
    @refuses_plainDeclaration token [] (rest ++ [mark]) [] fuel hKind
  -- A run that ends with another fault than that of an index is no run to the end mark.
  have hFails {other : ParseFault} {after : Cursor} (hOther : ∀ text, other ≠ .indexText text)
      (h : recovering (plainDeclaration fuel) ⟨[], token :: (rest ++ [mark]), []⟩ =
        .error other after) : False := by
    have hLasting := run_lasting hTokens hMark
    have hDeclaration : declaration (fuel + 1) ⟨[], token :: (rest ++ [mark]), []⟩ =
        .error other after := by
      unfold declaration
      exact h
    rw [hRun, bind_error hDeclaration] at hLasting
    cases other with
    | indexText text => exact hOther text rfl
    | rejected | pastEnd | outOfFuel => exact hLasting
  cases fault with
  | rejected error =>
      rcases recovering_of_rejected hRefused with
        ⟨-, finish, hAnswer, -, hRecovered, -⟩ | ⟨finish, hAnswer, -⟩
      · have hDeclaration : declaration (fuel + 1) ⟨[], token :: (rest ++ [mark]), []⟩ =
            .ok (placeholder error) finish := by
          unfold declaration
          exact hAnswer
        have hAdds : finish.recovered <:+ (reached (run (token :: rest ++ [mark]))).recovered := by
          rw [hRun, bind_ok hDeclaration]
          exact adds_bind (adds_program _ _) fun _ _ => List.suffix_refl _
        rw [List.reverse_eq_nil_iff.mp hCaught, List.suffix_nil, hRecovered] at hAdds
        cases hAdds
      · exact hFails (fun _ h => by cases h) hAnswer
  | indexText text => exact hText text rfl
  | pastEnd | outOfFuel =>
      exact hFails hText (recovering_of_not_rejected hRefused fun _ _ h => by cases h)

/-- The list that follows is parsed behind the first one, and its statements come
behind those of the first one. -/
theorem yields_joined {base following : List Token} (hEnds : Ends following) {fuel : Nat}
    {others : Except ParseFault (List Stmt)} (hCaught : caught (tokens ++ [mark]) = [])
    (hOthers : Yields (program fuel) ⟨tokens.reverse ++ base, following, []⟩ others) :
    Yields (program (fuelFor (.ofTokens (tokens ++ [mark])) + fuel)) ⟨base, tokens ++ following, []⟩
      (do
        let first ← outcome (run (tokens ++ [mark]))
        let second ← others
        return first ++ second) := by
  have hPlace : Cursor.within base following (.ofTokens (tokens ++ [mark])) =
      ⟨base, tokens ++ following, []⟩ := by
    unfold Cursor.within Cursor.ofTokens
    rw [prolonged_append hTokens hMark]
    rfl
  have hQuiet : (reached (run (tokens ++ [mark]))).recovered = [] :=
    List.reverse_eq_nil_iff.mp hCaught
  have hReached {statements : List Stmt} {after : Cursor}
      (h : run (tokens ++ [mark]) = .ok statements after) :
      after.within base following = ⟨tokens.reverse ++ base, following, []⟩ := by
    rcases run_cases hTokens hMark with ⟨_, recovered, hRun⟩ | ⟨_, hRun⟩
    · rw [hRun] at hQuiet h
      cases h
      rw [within_mark hMark, show recovered = [] from hQuiet]
    · rw [hRun] at h
      cases h
  have hWhole := @program_within base following (.ofTokens (tokens ++ [mark])) hEnds _ fuel
    (run_lasting hTokens hMark) hQuiet fun _ _ h => hReached h ▸ hOthers.settled
  rw [hPlace] at hWhole
  change _ = continued base following fuel (run (tokens ++ [mark])) at hWhole
  cases hRun : run (tokens ++ [mark]) with
  | error fault after =>
      have hLasting := run_lasting hTokens hMark
      rw [hRun] at hWhole hQuiet hLasting
      exact .of_eq (hWhole.trans rfl) (Lasting.settled hLasting) hQuiet rfl
  | ok first after =>
      rw [hRun] at hWhole
      change _ = (do return first ++ (← program fuel)) (after.within base following) at hWhole
      rw [hReached hRun] at hWhole
      obtain ⟨hSettled, hNone, rfl⟩ := hOthers
      cases hNext : program fuel ⟨tokens.reverse ++ base, following, []⟩ with
      | error fault finish =>
          rw [bind_error hNext] at hWhole
          rw [hNext] at hSettled hNone
          refine .of_eq hWhole (fun other hOther => hSettled other ?_) hNone rfl
          cases hOther
          rfl
      | ok second finish =>
          rw [bind_ok hNext] at hWhole
          rw [hNext] at hNone
          exact .of_eq hWhole (fun _ h => by cases h) hNone rfl

end

section

variable {front back : List Token} {markFront markBack mark : Token}
  (hBack : ∀ token ∈ back, token.kind ≠ .eof) (hMarkBack : markBack.kind = .eof)
  (hMark : mark.kind = .eof)

include hBack hMarkBack hMark

/-- What is parsed without an error starts with a token that ends every declaration, unless it is
one that could go on with an expression. -/
theorem ends_of_caught (hCaught : caught (back ++ [markBack]) = [])
    (hStart : ∀ token ∈ back.head?, token.kind ∉ [.leftParen, .leftBracket, .minus]) :
    Ends (back ++ [mark]) := by
  cases back with
  | nil => exact ⟨mark, [], rfl, hMark ▸ by decide⟩
  | cons token rest =>
      refine ⟨token, rest ++ [mark], rfl, List.mem_cons_of_mem _ (List.mem_filter.mpr ⟨?_, ?_⟩)⟩
      · exact mem_declarationStarts_of_caught hBack hMarkBack hCaught token rfl
      · exact decide_eq_true (hStart token rfl)

/-- The runs over two lists make up the run over both. -/
theorem yields_append (hFront : ∀ token ∈ front, token.kind ≠ .eof)
    (hMarkFront : markFront.kind = .eof) (hCaughtFront : caught (front ++ [markFront]) = [])
    (hCaughtBack : caught (back ++ [markBack]) = [])
    (hStart : ∀ token ∈ back.head?, token.kind ∉ [.leftParen, .leftBracket, .minus]) :
    Yields (program (fuelFor (.ofTokens (front ++ (back ++ [mark])))))
      (.ofTokens (front ++ (back ++ [mark])))
      (do
        let first ← outcome (run (front ++ [markFront]))
        let second ← outcome (run (back ++ [markBack]))
        return first ++ second) := by
  have hLast : Yields (program 1) ⟨back.reverse ++ front.reverse, [mark], []⟩ (.ok []) :=
    .of_eq (program_mark hMark 0 _ _ _) (fun _ h => by cases h) rfl rfl
  have hSecond := yields_joined hBack hMarkBack ⟨mark, [], rfl, hMark ▸ by decide⟩ hCaughtBack hLast
  have hNothing : (do
      let second ← outcome (run (back ++ [markBack]))
      let nothing ← .ok []
      return second ++ nothing) = outcome (run (back ++ [markBack])) := by
    cases outcome (run (back ++ [markBack])) with
    | error fault => rfl
    | ok second => exact congrArg Except.ok (List.append_nil second)
  rw [hNothing, ← List.append_nil front.reverse] at hSecond
  have hEnds := ends_of_caught hBack hMarkBack hMark hCaughtBack hStart
  have hWhole := yields_joined hFront hMarkFront hEnds hCaughtFront hSecond
  -- The bound that belongs to the whole list is smaller and is enough, too.
  have hEnded : (Cursor.ofTokens (front ++ (back ++ [mark]))).Ended :=
    ⟨mark, by simp [Cursor.ofTokens], hMark⟩
  have hBound : fuelFor (.ofTokens (front ++ (back ++ [mark]))) ≤
      fuelFor (.ofTokens (front ++ [markFront])) +
        (fuelFor (.ofTokens (back ++ [markBack])) + 1) := by
    simp only [fuelFor, Cursor.ofTokens, List.length_append, List.length_singleton]
    omega
  have hMore := (extends_program behindMark_id hBound _).eq_of_settled
    (settled_of_surely (surely_program_fuelFor hEnded))
  obtain ⟨hSettled, hQuiet, hOutcome⟩ := hWhole
  exact .of_eq hMore.symm hSettled hQuiet hOutcome

end

end Parse

/-- Parsing line by line and parsing as a whole agree. If no syntax error is
recovered from in either of two lists of tokens, and the second does not start
with an opening parenthesis or bracket or with a minus sign, then none is recovered
from in both lists together, and the statements are those of the first list and
behind them those of the second. A fault of either list is a fault of both. -/
theorem parse_append {front back : List Token} {markFront markBack mark : Token}
    (hFront : ∀ token ∈ front, token.kind ≠ .eof) (hMarkFront : markFront.kind = .eof)
    (hBack : ∀ token ∈ back, token.kind ≠ .eof) (hMarkBack : markBack.kind = .eof)
    (hMark : mark.kind = .eof) (hCaughtFront : caught (front ++ [markFront]) = [])
    (hCaughtBack : caught (back ++ [markBack]) = [])
    (hStart : ∀ token ∈ back.head?, token.kind ∉ [.leftParen, .leftBracket, .minus]) :
    caught (front ++ back ++ [mark]) = [] ∧
      parse (front ++ back ++ [mark]) = (do
        let first ← parse (front ++ [markFront])
        let second ← parse (back ++ [markBack])
        return ⟨first.statements ++ second.statements, []⟩) := by
  rw [List.append_assoc]
  obtain ⟨-, hQuiet, hOutcome⟩ := Parse.yields_append hBack hMarkBack hMark hFront hMarkFront
    hCaughtFront hCaughtBack hStart
  have hCaught : caught (front ++ (back ++ [mark])) = [] := List.reverse_eq_nil_iff.mpr hQuiet
  refine ⟨hCaught, ?_⟩
  change Parse.outcome (Parse.run (front ++ (back ++ [mark]))) = _ at hOutcome
  rw [parse_eq_outcome, parse_eq_outcome, parse_eq_outcome, hOutcome, hCaught]
  cases Parse.outcome (Parse.run (front ++ [markFront])) with
  | error fault => rfl
  | ok first =>
      cases Parse.outcome (Parse.run (back ++ [markBack])) with
      | error fault => rfl
      | ok second => rfl

/-- A branch that could go on with another word: `if (a) b.c`. -/
def openBranch : List Token :=
  [bareToken .ifWord "if" 1, bareToken .leftParen "(" 4, bareToken .identifier "a" 5,
    bareToken .rightParen ")" 6, bareToken .identifier "b" 8, bareToken .dot "." 9,
    bareToken .identifier "c" 10]

/-- A block and a negation: `{ return d } !e`. -/
def blockAndNegation : List Token :=
  [bareToken .leftBrace "\x7b" 1, bareToken .returnWord "return" 3, bareToken .identifier "d" 10,
    bareToken .rightBrace "\x7d" 12, bareToken .not "!" 14, bareToken .identifier "e" 15]

/-- The two samples are parsed one after the other to the statements of both. -/
theorem parse_append_openBranch :
    caught (openBranch ++ [bareToken .eof "" 11]) = [] ∧
      caught (blockAndNegation ++ [bareToken .eof "" 16]) = [] ∧
      caught (openBranch ++ blockAndNegation ++ [bareToken .eof "" 16]) = [] ∧
      parse (openBranch ++ blockAndNegation ++ [bareToken .eof "" 16]) = (do
        let first ← parse (openBranch ++ [bareToken .eof "" 11])
        let second ← parse (blockAndNegation ++ [bareToken .eof "" 16])
        return ⟨first.statements ++ second.statements, []⟩) := by
  have hFront : ∀ token ∈ openBranch, token.kind ≠ .eof := by
    decide
  have hBack : ∀ token ∈ blockAndNegation, token.kind ≠ .eof := by
    decide
  have hCaughtFront : caught (openBranch ++ [bareToken .eof "" 11]) = [] :=
    List.isEmpty_iff.mp (by decide +kernel)
  have hCaughtBack : caught (blockAndNegation ++ [bareToken .eof "" 16]) = [] :=
    List.isEmpty_iff.mp (by decide +kernel)
  have hStart : ∀ token ∈ blockAndNegation.head?,
      token.kind ∉ [.leftParen, .leftBracket, .minus] := by
    decide
  exact ⟨hCaughtFront, hCaughtBack,
    parse_append hFront rfl hBack rfl rfl hCaughtFront hCaughtBack hStart⟩

end Mus
