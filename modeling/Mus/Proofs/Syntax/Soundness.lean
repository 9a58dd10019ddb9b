import Mus.Proofs.Syntax.Totality

/-! What the parser returns is derived by the grammar from the tokens that it has read,
up to the stretches that are given up after a syntax error. If no error is recovered
from, there are none, and the program is derived from all tokens in front of the end
mark. -/
namespace Mus

/-- Declarations one after another yield the concatenation of what each of them
yields. -/
theorem Grammar.Declarations.exists_yields {faulty : Bool} {tokens : List Token}
    {statements : List Stmt} :
    Declarations faulty tokens statements → faulty = false →
      ∃ yields : List (List Token), tokens = yields.flatten ∧
        List.Forall₂ (Declaration false) yields statements
  | .none, _ => ⟨[], rfl, .nil⟩
  | @Declarations.more _ _ front _ _ _ first following, hClean => by
      obtain ⟨rfl, rfl⟩ := Bool.or_eq_false_iff.mp hClean
      obtain ⟨yields, rfl, hYields⟩ := following.exists_yields rfl
      exact ⟨front :: yields, rfl, .cons first hYields⟩

/-- The statements of a program are derived from the tokens that are kept, and something
is given up if and only if an error is recovered from. -/
theorem parse_derives {tokens : List Token} {program : Program}
    (hParse : parse tokens = .ok program) :
    ∃ kept lost after,
      Parse.program (Parse.fuelFor (.ofTokens tokens)) (.ofTokens tokens) =
        .ok program.statements after ∧
      Parse.Moves (.ofTokens tokens) kept lost after ∧
      Grammar.Declarations (!lost.isEmpty) kept program.statements ∧
      (lost = [] ↔ program.errors = []) := by
  have hDerives := Parse.program_derives (Parse.fuelFor (.ofTokens tokens)) (.ofTokens tokens)
  unfold Parse.Derives at hDerives
  cases hRun : Parse.program (Parse.fuelFor (.ofTokens tokens)) (.ofTokens tokens) with
  | error fault after =>
      rw [parse_of_error hRun] at hParse
      cases hParse
  | ok statements after =>
      rw [hRun] at hDerives
      rw [parse_of_ok hRun] at hParse
      cases hParse
      obtain ⟨-, kept, lost, hMoves, hYields⟩ := hDerives
      refine ⟨kept, lost, after, rfl, hMoves, hYields, ?_⟩
      rw [List.reverse_eq_nil_iff]
      constructor
      · exact hMoves.quiet
      · intro hNone
        have hNoted := hMoves.noted
        rw [hNone, List.length_nil] at hNoted
        exact List.length_eq_zero_iff.mp (by omega)

/-- Without an error, all tokens in front of the first end mark are derived. -/
theorem parse_derives_all {front behind : List Token} {mark : Token} {program : Program}
    (hFront : ∀ token ∈ front, token.kind ≠ .eof) (hMark : mark.kind = .eof)
    (hParse : parse (front ++ mark :: behind) = .ok program) (hErrors : program.errors = []) :
    Grammar.Declarations false front program.statements := by
  obtain ⟨kept, lost, after, hRun, hMoves, hDerives, hLost⟩ := parse_derives hParse
  obtain ⟨read, hRead, -, hAll⟩ := hMoves.passes
  have hRest : after.rest = mark :: behind := by
    rcases Parse.program_answer hFront hMark behind with
      ⟨statements, errors, hAnswer, -⟩ | ⟨⟨finish, hAnswer⟩, -⟩
    · rw [hRun] at hAnswer
      cases hAnswer
      rw [Cursor.past_eq (Nat.le_refl _), List.drop_length]
      rfl
    · rw [hRun] at hAnswer
      cases hAnswer
  have hTokens := hRead.rest
  rw [hRest] at hTokens
  obtain rfl : front = read := List.append_cancel_right hTokens
  obtain rfl := hLost.mpr hErrors
  rw [hAll rfl]
  exact hDerives

/-- The parser is sound. If no syntax error is recovered from, the tokens in front of
the first end mark are the concatenation of parts, one for each statement that is
returned, and in the grammar each part is a declaration with that statement as its
tree. -/
theorem parse_sound {front behind : List Token} {mark : Token} {program : Program}
    (hFront : ∀ token ∈ front, token.kind ≠ .eof) (hMark : mark.kind = .eof)
    (hParse : parse (front ++ mark :: behind) = .ok program) (hErrors : program.errors = []) :
    ∃ yields : List (List Token), front = yields.flatten ∧
      List.Forall₂ (Grammar.Declaration false) yields program.statements :=
  (parse_derives_all hFront hMark hParse hErrors).exists_yields rfl

/-- A class and a counting loop whose body assigns to a property in parentheses:
`class C extends B { var n => integer fun get() { return } }` and
`for (var i = 0; i < n; i = i + 1) (c.n) = a[i]`. -/
def soundSample : List Token :=
  [bareToken .classWord "class" 1, bareToken .identifier "C" 7, bareToken .extendsWord "extends" 9,
    bareToken .identifier "B" 17, bareToken .leftBrace "\x7b" 19, bareToken .varWord "var" 21,
    bareToken .identifier "n" 25, bareToken .arrow "=>" 27, bareToken .identifier "integer" 30,
    bareToken .funWord "fun" 38, bareToken .identifier "get" 42, bareToken .leftParen "(" 45,
    bareToken .rightParen ")" 46, bareToken .leftBrace "\x7b" 48, bareToken .returnWord "return" 50,
    bareToken .rightBrace "\x7d" 57, bareToken .rightBrace "\x7d" 59, bareToken .forWord "for" 61,
    bareToken .leftParen "(" 65, bareToken .varWord "var" 66, bareToken .identifier "i" 70,
    bareToken .assign "=" 72, ⟨.integer, "0", .int 0, 1, 74⟩, bareToken .semicolon ";" 75,
    bareToken .identifier "i" 77, bareToken .less "<" 79, bareToken .identifier "n" 81,
    bareToken .semicolon ";" 82, bareToken .identifier "i" 84, bareToken .assign "=" 86,
    bareToken .identifier "i" 88, bareToken .plus "+" 90, ⟨.integer, "1", .int 1, 1, 92⟩,
    bareToken .rightParen ")" 93, bareToken .leftParen "(" 95, bareToken .identifier "c" 96,
    bareToken .dot "." 97, bareToken .identifier "n" 98, bareToken .rightParen ")" 99,
    bareToken .assign "=" 101, bareToken .identifier "a" 103, bareToken .leftBracket "[" 104,
    bareToken .identifier "i" 105, bareToken .rightBracket "]" 106]

/-- The sample is parsed without an error, and its two statements are derived from its tokens. -/
theorem parse_sound_soundSample :
    ∃ program, parse (soundSample ++ [bareToken .eof "" 107]) = .ok program ∧
      program.errors = [] ∧ program.statements.length = 2 ∧
      ∃ yields : List (List Token), soundSample = yields.flatten ∧
        List.Forall₂ (Grammar.Declaration false) yields program.statements := by
  have hFront : ∀ token ∈ soundSample, token.kind ≠ .eof := by
    decide
  have hParsed : ((parse (soundSample ++ [bareToken .eof "" 107])).toOption.any fun program =>
      program.errors.isEmpty && program.statements.length == 2) = true := by
    decide +kernel
  cases hParse : parse (soundSample ++ [bareToken .eof "" 107]) with
  | error fault =>
      rw [hParse] at hParsed
      cases hParsed
  | ok program =>
      rw [hParse] at hParsed
      obtain ⟨hErrors, hLength⟩ := Bool.and_eq_true_iff.mp hParsed
      have hNone : program.errors = [] := List.isEmpty_iff.mp hErrors
      exact ⟨program, rfl, hNone, eq_of_beq hLength, parse_sound hFront rfl hParse hNone⟩

end Mus
