import Mathlib.Data.List.TakeWhile
import Mus.Token.Scanner

/-! Sources whose tokens are separated by blanks. Each token is scanned on its
own, and at the place where it stands in the source. -/
namespace Mus

open Mus.Text

structure Place where
  line : Nat
  column : Nat
  deriving DecidableEq, Repr

namespace Place

def after (place : Place) (c : Char) : Place :=
  if c = '\n' then ⟨place.line + 1, 1⟩ else ⟨place.line, place.column + 1⟩

def afterAll (place : Place) (text : List Char) : Place :=
  text.foldl after place

/-- A text without line ends moves the column only. -/
theorem afterAll_of_line {text : List Char} (h : '\n' ∉ text) (place : Place) :
    place.afterAll text = ⟨place.line, place.column + text.length⟩ := by
  induction text generalizing place with
  | nil => rfl
  | cons c text ih =>
      have hC : ¬c = '\n' := fun hEq => h (hEq ▸ List.mem_cons_self ..)
      have hText : '\n' ∉ text := fun hMem => h (List.mem_cons_of_mem _ hMem)
      change (place.after c).afterAll text = _
      rw [ih hText, after, if_neg hC, List.length_cons]
      congr 1
      dsimp only
      omega

end Place

/-- The blanks between tokens. -/
def isGap (c : Char) : Bool :=
  c == ' ' || c == '\r' || c == '\t' || c == '\n'

/-- A text that a token is not read into: it is empty or starts with a blank. -/
def Free (text : List Char) : Prop :=
  ∀ c ∈ text.head?, isGap c = true

theorem free_cons {c : Char} (h : isGap c = true) (text : List Char) : Free (c :: text) := by
  intro first hFirst
  cases hFirst
  exact h

def Token.StandsAt (token : Token) (place : Place) : Prop :=
  token.line = place.line ∧ token.column = place.column

/-- The text from a place on consists of these tokens, each at its place, with
blanks between them. -/
inductive Laid : Place → List Token → List Char → Prop where
  | gap {place : Place} {text : List Char} (hGap : text.all isGap = true) : Laid place [] text
  | word {place : Place} {gap rest : List Char} {token : Token} {tokens : List Token}
      (hGap : gap.all isGap = true) (hPlace : token.StandsAt (place.afterAll gap))
      (hFree : Free rest)
      (hRest : Laid ((place.afterAll gap).afterAll token.lexeme.toList) tokens rest) :
      Laid place (token :: tokens) (gap ++ (token.lexeme.toList ++ rest))

/-- A blank before a text moves it on. -/
theorem Laid.cons {place : Place} {c : Char} {tokens : List Token} {text : List Char}
    (hGap : isGap c = true) (h : Laid (place.after c) tokens text) :
    Laid place tokens (c :: text) := by
  have hAll : ∀ gap : List Char, gap.all isGap = true → (c :: gap).all isGap = true := by
    intro gap hRest
    rw [List.all_cons, hGap, hRest]
    rfl
  cases h with
  | gap hRest => exact .gap (hAll text hRest)
  | word hRest hPlace hFree hLaid => exact .word (hAll _ hRest) hPlace hFree hLaid

/-- A word on a line, with one blank behind it. -/
theorem Laid.word_blank (token : Token) {line column : Nat} {tokens : List Token}
    {rest : List Char} (hPlace : token.StandsAt ⟨line, column⟩)
    (hLine : '\n' ∉ token.lexeme.toList)
    (h : Laid ⟨line, column + token.lexeme.toList.length + 1⟩ tokens rest) :
    Laid ⟨line, column⟩ (token :: tokens) (token.lexeme.toList ++ ' ' :: rest) := by
  have hRest : Laid (Place.afterAll ⟨line, column⟩ token.lexeme.toList) tokens (' ' :: rest) := by
    rw [Place.afterAll_of_line hLine]
    exact .cons rfl h
  exact .word (show List.all [] isGap = true from rfl) hPlace (free_cons rfl rest) hRest

def Scanner.place (s : Scanner) : Place := ⟨s.line, s.column⟩

/-- A token that is scanned from its text alone, before a text that it is not
read into. -/
structure Token.Lexes (token : Token) : Prop where
  nonempty : token.lexeme.toList ≠ []
  scans : ∀ (s : Scanner) (rest : List Char), Free rest → s.lexeme = [] →
    s.rest = token.lexeme.toList ++ rest →
    ∃ t : Scanner, s.scanToken = .ok t ∧ t.rest = rest ∧
      t.tokens = s.tokens.push ⟨token.kind, token.lexeme, token.literal, s.line, s.column⟩ ∧
      t.place = s.place.afterAll token.lexeme.toList

namespace Scanner

variable {s t : Scanner}

/-- One step of the scanner, and then the others. -/
theorem scanTokens_step (hRest : s.rest ≠ []) (hStep : s.begin.scanToken = .ok t) :
    s.scanTokens = t.scanTokens := by
  have hEnd : ¬s.atEnd = true := by
    intro hEnd
    exact hRest (List.isEmpty_iff.mp hEnd)
  rw [scanTokens, if_neg hEnd]
  split
  · next failure hFail =>
    rw [hStep] at hFail
    cases hFail
  · next u hOk =>
    rw [hStep] at hOk
    cases hOk
    rfl

/-- At the end of the source the end mark is added. -/
theorem scanTokens_end (h : s.rest = []) :
    s.scanTokens =
      .ok { s with tokens := s.tokens.push ⟨.eof, "", .nothing, s.line, s.column⟩ } := by
  rw [scanTokens, if_pos (show s.atEnd = true from List.isEmpty_iff.mpr h)]

/-- A blank is left behind. -/
theorem scanToken_gap {c : Char} {rest : List Char} (hGap : isGap c = true)
    (hRest : s.rest = c :: rest) :
    ∃ t : Scanner, s.scanToken = .ok t ∧ t.rest = rest ∧ t.tokens = s.tokens ∧
      t.place = s.place.after c := by
  have hCases : c = ' ' ∨ c = '\r' ∨ c = '\t' ∨ c = '\n' := by
    simpa [isGap, or_assoc] using hGap
  unfold scanToken advance
  rw [hRest]
  rcases hCases with rfl | rfl | rfl | rfl <;> exact ⟨_, rfl, rfl, rfl, rfl⟩

/-- The tokens that are found when the rest is scanned. -/
def finds (s : Scanner) : Except Failure (List Token) :=
  s.scanTokens.map fun t => t.tokens.toList

/-- What is found after a step is what is found before it. -/
theorem finds_step (hRest : s.rest ≠ []) (hStep : s.begin.scanToken = .ok t) :
    s.finds = t.finds := by
  unfold finds
  rw [scanTokens_step hRest hStep]

/-- Blanks are left behind. -/
theorem finds_gap {gap rest : List Char} (hGap : gap.all isGap = true)
    (hRest : s.rest = gap ++ rest) :
    ∃ t : Scanner, s.finds = t.finds ∧ t.rest = rest ∧ t.tokens = s.tokens ∧
      t.place = s.place.afterAll gap := by
  induction gap generalizing s with
  | nil => exact ⟨s, rfl, hRest, rfl, rfl⟩
  | cons c gap ih =>
      rw [List.all_cons, Bool.and_eq_true] at hGap
      rw [List.cons_append] at hRest
      obtain ⟨u, hStep, hRestU, hTokensU, hPlaceU⟩ :=
        scanToken_gap hGap.1 (show s.begin.rest = c :: (gap ++ rest) from hRest)
      obtain ⟨t, hFinds, hRestT, hTokensT, hPlaceT⟩ := ih hGap.2 hRestU
      have hNonempty : s.rest ≠ [] := by
        rw [hRest]
        exact List.cons_ne_nil c _
      refine ⟨t, (finds_step hNonempty hStep).trans hFinds, hRestT, hTokensT.trans hTokensU, ?_⟩
      rw [hPlaceT, hPlaceU]
      rfl

/-- The tokens of a laid out text are found, and then the end mark. -/
theorem finds_laid {place : Place} {tokens : List Token} {text : List Char}
    (hLaid : Laid place tokens text) (hLexes : ∀ token ∈ tokens, token.Lexes)
    (hRest : s.rest = text) (hPlace : s.place = place) :
    ∃ mark : Token, mark.kind = .eof ∧ s.finds = .ok (s.tokens.toList ++ (tokens ++ [mark])) := by
  induction hLaid generalizing s with
  | @gap place text hGap =>
      rw [← List.append_nil text] at hRest
      obtain ⟨t, hFinds, hRestT, hTokens, -⟩ := finds_gap hGap hRest
      refine ⟨⟨.eof, "", .nothing, t.line, t.column⟩, rfl, ?_⟩
      rw [hFinds, finds, scanTokens_end hRestT]
      change Except.ok (t.tokens.push _).toList = _
      rw [Array.toList_push, hTokens, List.nil_append]
  | @word place gap rest token tokens hGap hStands hFree _ ih =>
      have hLex := hLexes token (List.mem_cons_self ..)
      obtain ⟨t, hFinds, hRestT, hTokensT, hPlaceT⟩ := finds_gap hGap hRest
      have hNonempty : t.rest ≠ [] := by
        rw [hRestT]
        exact fun h => hLex.nonempty (List.append_eq_nil_iff.mp h).1
      obtain ⟨u, hStep, hRestU, hTokensU, hPlaceU⟩ := hLex.scans t.begin rest hFree rfl hRestT
      have hAt : t.place = place.afterAll gap := by rw [hPlaceT, hPlace]
      -- The scanner stands where the token stands, so the token it finds is this one.
      have hToken :
          (⟨token.kind, token.lexeme, token.literal, t.line, t.column⟩ : Token) = token := by
        rw [← hAt] at hStands
        obtain ⟨kind, lexeme, literal, line, column⟩ := token
        obtain ⟨rfl, rfl⟩ := hStands
        rfl
      have hAfter : u.place = (place.afterAll gap).afterAll token.lexeme.toList := by
        rw [hPlaceU, ← hAt]
        rfl
      obtain ⟨mark, hMark, hFindsU⟩ :=
        ih (fun other hOther => hLexes other (List.mem_cons_of_mem _ hOther)) hRestU hAfter
      refine ⟨mark, hMark, ?_⟩
      rw [hFinds, finds_step hNonempty hStep, hFindsU, hTokensU]
      change Except.ok ((t.tokens.push ⟨_, _, _, t.line, t.column⟩).toList ++ _) = _
      rw [hToken, Array.toList_push, hTokensT, List.append_assoc]
      rfl

end Scanner

/-! ## Tokens that are scanned from their text alone -/

section

variable {rest : List Char}

theorem isGap_cases {c : Char} (h : isGap c = true) :
    c = ' ' ∨ c = '\r' ∨ c = '\t' ∨ c = '\n' := by
  simpa [isGap, or_assoc] using h

/-- A run of characters up to the first one that does not belong to it. -/
theorem span_append {belongs : Char → Bool} {run : List Char}
    (hRun : ∀ c ∈ run, belongs c = true) (hNext : ∀ c ∈ rest.head?, belongs c = false) :
    (run ++ rest).takeWhile belongs = run ∧ (run ++ rest).dropWhile belongs = rest := by
  rw [List.takeWhile_append_of_pos hRun, List.dropWhile_append_of_pos hRun]
  cases rest with
  | nil => simp
  | cons c rest => simp [hNext c rfl]

/-- A blank is not the second character of a token. -/
theorem Scanner.accept_free {s : Scanner} {expected : Char} (hExpected : isGap expected = false)
    (hFree : Free s.rest) : s.accept expected = none := by
  unfold Scanner.accept
  split
  · rfl
  · next c rest hRest =>
    rw [hRest] at hFree
    refine if_neg ?_
    rintro rfl
    rw [hFree c rfl] at hExpected
    cases hExpected

end

namespace Scanner

/-- The scanner after it has read a text, with the rest before it. -/
def past (s : Scanner) (text rest : List Char) : Scanner :=
  { s with
    consumed := s.consumed + text.length
    lexeme := text
    rest := rest
    column := s.column + text.length }

variable {s : Scanner} {c : Char} {rest : List Char}

@[simp]
theorem past_rest (text : List Char) : (s.past text rest).rest = rest := rfl

/-- A step reads the first character and goes on by what it is. -/
theorem scanToken_cons (hLexeme : s.lexeme = []) (hRest : s.rest = c :: rest) :
    s.scanToken = (s.past [c] rest).scanAfter c := by
  unfold scanToken advance
  rw [hRest, hLexeme]
  rfl

/-- A run of characters is read. -/
theorem skip_past_eq (p : Char → Bool) (text : List Char) :
    (s.past text rest).skip p = s.past (text ++ rest.takeWhile p) (rest.dropWhile p) := by
  simp only [skip, past, List.length_append, Nat.add_assoc]

/-- The rest of a run is read. -/
theorem skip_past {p : Char → Bool} {run : List Char} (hRun : ∀ c ∈ run, p c = true)
    (hGap : ∀ c, isGap c = true → p c = false) (hFree : Free rest) :
    (s.past [c] (run ++ rest)).skip p = s.past (c :: run) rest := by
  obtain ⟨hTake, hDrop⟩ := span_append hRun fun c hHead => hGap c (hFree c hHead)
  rw [skip_past_eq, hTake, hDrop]
  rfl

end Scanner

namespace Token

/-- It is enough that the text is read and the token is added. -/
theorem lexes_of_emit {token : Token} {text : List Char} (hText : token.lexeme = String.ofList text)
    (hNonempty : text ≠ []) (hLine : '\n' ∉ text)
    (h : ∀ (s : Scanner) (rest : List Char), Free rest → s.lexeme = [] → s.rest = text ++ rest →
      s.scanToken = .ok ((s.past text rest).emit token.kind token.literal)) : token.Lexes := by
  have hList : token.lexeme.toList = text := by rw [hText, String.toList_ofList]
  refine ⟨hList ▸ hNonempty, fun s rest hFree hLexeme hRest => ?_⟩
  rw [hList] at hRest ⊢
  have hColumn : ((s.column + text.length : Nat) : Int) - text.length = s.column := by omega
  refine ⟨_, h s rest hFree hLexeme hRest, rfl, ?_, ?_⟩
  · change s.tokens.push ⟨token.kind, String.ofList text, token.literal, s.line, _⟩ = _
    rw [hText]
    congr 2
  · rw [Place.afterAll_of_line hLine]
    rfl

variable (line column : Int)

/-- A character that is a token by itself. -/
theorem lexes_symbol {c : Char} {kind : TokenKind} (h : Scanner.symbol? c = some kind) :
    Lexes ⟨kind, String.ofList [c], .nothing, line, column⟩ := by
  refine lexes_of_emit rfl (List.cons_ne_nil c []) ?_ fun s rest hFree hLexeme hRest => ?_
  · rw [List.mem_singleton]
    rintro rfl
    cases h
  · rw [Scanner.scanToken_cons hLexeme hRest]
    unfold Scanner.scanAfter
    rw [h]
    rfl

/-- The sign for an assignment, though two longer signs start with it. -/
theorem lexes_assign : Lexes ⟨.assign, String.ofList ['='], .nothing, line, column⟩ := by
  refine lexes_of_emit rfl (by decide) (by decide) fun s rest hFree hLexeme hRest => ?_
  rw [Scanner.scanToken_cons hLexeme hRest]
  change Except.ok (Scanner.pair '=' .equals _ (Scanner.pair '>' .arrow _ _)) = _
  unfold Scanner.pair
  rw [Scanner.accept_free (by decide) hFree, Scanner.accept_free (by decide) hFree]
  rfl

theorem lexes_not : Lexes ⟨.not, String.ofList ['!'], .nothing, line, column⟩ := by
  refine lexes_of_emit rfl (by decide) (by decide) fun s rest hFree hLexeme hRest => ?_
  rw [Scanner.scanToken_cons hLexeme hRest]
  change Except.ok (Scanner.pair '=' .notEquals _ _) = _
  unfold Scanner.pair
  rw [Scanner.accept_free (by decide) hFree]
  rfl

theorem lexes_greater : Lexes ⟨.greater, String.ofList ['>'], .nothing, line, column⟩ := by
  refine lexes_of_emit rfl (by decide) (by decide) fun s rest hFree hLexeme hRest => ?_
  rw [Scanner.scanToken_cons hLexeme hRest]
  change Except.ok (Scanner.pair '=' .greaterEqual _ _) = _
  unfold Scanner.pair
  rw [Scanner.accept_free (by decide) hFree]
  rfl

theorem lexes_less : Lexes ⟨.less, String.ofList ['<'], .nothing, line, column⟩ := by
  refine lexes_of_emit rfl (by decide) (by decide) fun s rest hFree hLexeme hRest => ?_
  rw [Scanner.scanToken_cons hLexeme hRest]
  change Except.ok (Scanner.pair '=' .lessEqual _ _) = _
  unfold Scanner.pair
  rw [Scanner.accept_free (by decide) hFree]
  rfl

/-- A second such sign would begin a comment. -/
theorem lexes_minus : Lexes ⟨.minus, String.ofList ['-'], .nothing, line, column⟩ := by
  refine lexes_of_emit rfl (by decide) (by decide) fun s rest hFree hLexeme hRest => ?_
  rw [Scanner.scanToken_cons hLexeme hRest]
  change Except.ok (Scanner.commentOr '-' .minus _) = _
  unfold Scanner.commentOr
  rw [Scanner.accept_free (by decide) hFree]
  rfl

def pairs : List (TokenKind × Char × Char) :=
  [(.equals, '=', '='), (.arrow, '=', '>'), (.notEquals, '!', '='), (.greaterEqual, '>', '='),
    (.lessEqual, '<', '=')]

/-- A sign of two characters is scanned from its text alone. -/
theorem lexes_pair {kind : TokenKind} {first second : Char} (h : (kind, first, second) ∈ pairs) :
    Lexes ⟨kind, String.ofList [first, second], .nothing, line, column⟩ := by
  have hLine : ∀ entry ∈ pairs, '\n' ∉ [entry.2.1, entry.2.2] := by decide
  refine lexes_of_emit rfl (List.cons_ne_nil first _) (hLine _ h) ?_
  intro s rest hFree hLexeme hRest
  rw [Scanner.scanToken_cons hLexeme hRest]
  simp only [pairs, List.mem_cons, Prod.mk.injEq, List.not_mem_nil, or_false] at h
  rcases h with ⟨rfl, rfl, rfl⟩ | ⟨rfl, rfl, rfl⟩ | ⟨rfl, rfl, rfl⟩ | ⟨rfl, rfl, rfl⟩ |
    ⟨rfl, rfl, rfl⟩ <;> rfl

/-- The characters that start no name and no number. -/
def specials : List Char :=
  ['(', ')', '\x7b', '\x7d', '[', ']', ',', '.', '+', '*', '%', ';', '=', '!', '>', '<', '-', '/',
    ' ', '\r', '\t', '\n', '\x22']

/-- A character that is not special starts a number, a name or nothing. -/
theorem scanAfter_of_not_special {s : Scanner} {c : Char} (h : c ∉ specials) :
    s.scanAfter c =
      if isDigit c then s.number
      else if isLetter c ∨ c = '_' then .ok s.identifier
      else .error ⟨.unexpected c s.line s.column, s⟩ := by
  simp only [specials, List.mem_cons, List.not_mem_nil, or_false, not_or] at h
  have hSymbol : Scanner.symbol? c = none := by
    unfold Scanner.symbol?
    split <;> simp_all
  unfold Scanner.scanAfter
  rw [hSymbol]
  simp [h]

theorem isWordChar_of_isGap {c : Char} (h : isGap c = true) : isWordChar c = false := by
  rcases isGap_cases h with rfl | rfl | rfl | rfl <;> decide

theorem isDigit_of_isGap {c : Char} (h : isGap c = true) : isDigit c = false := by
  rcases isGap_cases h with rfl | rfl | rfl | rfl <;> decide

/-- A word: a name or a keyword. -/
theorem lexes_word {c : Char} {run : List Char} {kind : TokenKind} {literal : Value}
    (hFirst : c ∉ specials) (hDigit : isDigit c = false) (hLetter : isLetter c = true)
    (hRun : run.all isWordChar = true) (hLine : '\n' ∉ c :: run)
    (hKind : TokenKind.ofWord (String.ofList (c :: run)) = kind)
    (hLiteral : (if kind = .boolean then
      .bool (String.ofList (c :: run) == "true") else .nothing) = literal) :
    Lexes ⟨kind, String.ofList (c :: run), literal, line, column⟩ := by
  refine lexes_of_emit rfl (List.cons_ne_nil c _) hLine fun s rest hFree hLexeme hRest => ?_
  rw [Scanner.scanToken_cons hLexeme hRest, scanAfter_of_not_special hFirst, hDigit, hLetter]
  change Except.ok (Scanner.identifier (s.past [c] (run ++ rest))) = _
  unfold Scanner.identifier
  dsimp only
  rw [Scanner.skip_past (List.all_eq_true.mp hRun) (fun _ => isWordChar_of_isGap) hFree]
  rw [show (s.past (c :: run) rest).lexeme = c :: run from rfl, hKind, hLiteral]

end Token

namespace Integer

/-- Digits are in plain notation already. -/
theorem plain_of_digits {digits : List Char} (h : ∀ c ∈ digits, c.isDigit = true) :
    plain digits = digits := by
  induction digits with
  | nil => rfl
  | cons c digits ih =>
      have hSmall : c.toNat < 127 := by
        have hDigit := h c (List.mem_cons_self ..)
        simp only [Char.isDigit, Bool.and_eq_true, decide_eq_true_eq] at hDigit
        have hUpper : c.toNat ≤ 57 := hDigit.2
        omega
      rw [plain, if_pos hSmall, ih fun other hOther => h other (List.mem_cons_of_mem _ hOther)]

theorem wellSpaced_of_digits {digits : List Char} (h : ∀ c ∈ digits, c.isDigit = true) :
    wellSpaced false digits = true := by
  induction digits with
  | nil => rfl
  | cons c digits ih =>
      have hUnderscore : ¬c = '_' := by
        rintro rfl
        exact absurd (h '_' (List.mem_cons_self ..)) (by decide)
      rw [wellSpaced, if_neg hUnderscore]
      exact ih fun other hOther => h other (List.mem_cons_of_mem _ hOther)

/-- Digits are read as their number, if there are not too many of them. -/
theorem readUnsigned_digits {digits : List Char} (h : ∀ c ∈ digits, c.isDigit = true)
    (hNonempty : digits ≠ []) (hLength : digits.length ≤ digitLimit) :
    readUnsigned digits = .ok (ofDigits (digits.map fun c => c.toNat - 48)) := by
  have hRun : (digits.takeWhile fun c => c.isDigit || c == '_') = digits := by
    refine List.takeWhile_eq_self_iff.mpr fun c hC => ?_
    rw [h c hC, Bool.true_or]
  have hFilter : digits.filter Char.isDigit = digits := List.filter_eq_self.mpr h
  have hHead : ¬digits.head? = some '_' := by
    intro hHead
    exact absurd (h '_' (List.mem_of_mem_head? hHead)) (by decide)
  unfold readUnsigned
  dsimp only
  rw [hRun, hFilter, wellSpaced_of_digits h]
  rw [if_neg (by simp [hHead, hNonempty]), if_neg (by omega), List.drop_length]
  rfl

/-- Decimal digits are read as the number that they write. -/
theorem read_digits {digits : List Char} (h : ∀ c ∈ digits, c.isDigit = true)
    (hNonempty : digits ≠ []) (hLength : digits.length ≤ digitLimit) :
    read digits = .ok (ofDigits (digits.map fun c => c.toNat - 48)) := by
  obtain ⟨c, others, rfl⟩ := List.exists_cons_of_ne_nil hNonempty
  have hFirst : c.isDigit = true := h c (List.mem_cons_self ..)
  have hPadding : (c :: others).dropWhile isPadding = c :: others := by
    refine List.dropWhile_cons_of_neg ?_
    simp only [Char.isDigit, Bool.and_eq_true, decide_eq_true_eq] at hFirst
    have hLower : 48 ≤ c.toNat := hFirst.1
    have hSpace : ¬c = ' ' := by
      rintro rfl
      exact absurd hLower (by decide)
    simp only [isPadding, beq_iff_eq, hSpace, Bool.or_eq_true, false_or, Bool.and_eq_true,
      decide_eq_true_eq]
    omega
  unfold read
  rw [plain_of_digits h, hPadding]
  split
  · next hEq =>
    cases hEq
    exact absurd hFirst (by decide)
  · next hEq =>
    cases hEq
    exact absurd hFirst (by decide)
  · rw [readUnsigned_digits h hNonempty hLength]
    rfl

end Integer

/-- A number, before a text that holds no digit and no point. -/
theorem Token.lexes_number {digits : List Char} (h : ∀ c ∈ digits, c.isDigit = true)
    (hNonempty : digits ≠ []) (hLength : digits.length ≤ Integer.digitLimit)
    (line column : Int) :
    Lexes ⟨.integer, String.ofList digits,
      .int (Integer.ofDigits (digits.map fun c => c.toNat - 48)), line, column⟩ := by
  obtain ⟨c, run, rfl⟩ := List.exists_cons_of_ne_nil hNonempty
  have hAscii : ∀ d ∈ c :: run, isDigit d = true := by
    intro d hD
    have hDigit := h d hD
    simp only [Char.isDigit, Bool.and_eq_true, decide_eq_true_eq] at hDigit
    have hUpper : d.toNat ≤ 57 := hDigit.2
    rw [isDigit_of_ascii (by omega)]
    exact h d hD
  have hNone : ∀ d ∈ '\n' :: specials, (!d.isDigit) = true := List.all_eq_true.mp (by decide)
  have hLine : '\n' ∉ c :: run := by
    intro hMem
    have hNewline := hNone '\n' (List.mem_cons_self ..)
    rw [h '\n' hMem] at hNewline
    cases hNewline
  have hFirst : c ∉ specials := by
    intro hMem
    have hSpecial := hNone c (List.mem_cons_of_mem _ hMem)
    rw [h c (List.mem_cons_self ..)] at hSpecial
    cases hSpecial
  refine lexes_of_emit rfl hNonempty hLine fun s rest hFree hLexeme hRest => ?_
  rw [Scanner.scanToken_cons hLexeme hRest, scanAfter_of_not_special hFirst,
    hAscii c (List.mem_cons_self ..)]
  change Scanner.number (s.past [c] (run ++ rest)) = _
  have hSkip : (s.past [c] (run ++ rest)).skipNumber = s.past (c :: run) rest := by
    unfold Scanner.skipNumber
    dsimp only
    rw [Scanner.skip_past (fun d hD => hAscii d (List.mem_cons_of_mem _ hD))
      (fun _ => isDigit_of_isGap) hFree]
    split
    · next d more hPoint =>
      have hGap := hFree '.' (by rw [show rest = '.' :: d :: more from hPoint]; rfl)
      exact absurd hGap (by decide)
    · rfl
  unfold Scanner.number
  dsimp only
  rw [hSkip, show (s.past (c :: run) rest).lexeme = c :: run from rfl,
    Integer.read_digits h hNonempty hLength]

/-- A source that is laid out from its first place on is scanned to its tokens. -/
theorem tokenize_laid {tokens : List Token} {text : List Char}
    (hLaid : Laid ⟨1, 1⟩ tokens text) (hLexes : ∀ token ∈ tokens, token.Lexes) :
    ∃ mark : Token, mark.kind = .eof ∧
      tokenize (String.ofList text) = .ok (tokens ++ [mark]) := by
  unfold tokenize
  rw [String.toList_ofList]
  exact Scanner.finds_laid hLaid hLexes rfl rfl

end Mus
