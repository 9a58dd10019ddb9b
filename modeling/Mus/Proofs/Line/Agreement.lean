import Mathlib.Data.List.Infix
import Mus.Line.Scanner
import Mus.Proofs.Token.Sourced

/-! The scanner of the line dialect finds the tokens of the language. It knows
comments with hyphens only, and a backslash means something to it, so a source may
hold no two slashes side by side and no backslash. Then each gap of the source is
skipped, each lexeme is read up to its end, and the line dialect gives it the kind
that belongs to the kind of the token. -/
namespace Mus

open Mus.Text

/-! ## Classes of characters -/

namespace Text

/-- What the classes of the characters below 128 have in common. -/
theorem ascii_apart {c : Char} (hAscii : c.toNat < 128) :
    (c.isDigit = true → c.isAlpha = false ∧ isBlank c = false) ∧
      (c.isAlpha = true → isBlank c = false) := by
  have hAll : ∀ n < 128,
      ((Char.ofNat n).isDigit = true → (Char.ofNat n).isAlpha = false ∧
        isBlank (Char.ofNat n) = false) ∧
      ((Char.ofNat n).isAlpha = true → isBlank (Char.ofNat n) = false) := by
    decide
  have hChar := hAll c.toNat hAscii
  rwa [Char.ofNat_toNat] at hChar

/-- No character is a digit and a letter, by the tables of both. -/
theorem isLetter_of_isDigit {c : Char} (h : isDigit c = true) : isLetter c = false := by
  unfold isDigit at h
  unfold isLetter
  split_ifs at h ⊢ with hAscii
  · exact ((ascii_apart hAscii).1 h).1
  · exact Ranges.contains_of_apart (by decide +kernel) h

theorem isBlank_of_isDigit {c : Char} (h : isDigit c = true) : isBlank c = false := by
  unfold isDigit at h
  split_ifs at h with hAscii
  · exact ((ascii_apart hAscii).1 h).2
  · exact Ranges.contains_of_apart (by decide +kernel) h

theorem isBlank_of_isLetter {c : Char} (h : isLetter c = true) : isBlank c = false := by
  unfold isLetter at h
  split_ifs at h with hAscii
  · exact (ascii_apart hAscii).2 h
  · exact isBlank_of_letterRanges h

/-- What separates tokens of the language also separates those of the line dialect. -/
theorem isBlank_of_isGap {c : Char} (h : isGap c = true) : isBlank c = true := by
  simp only [isGap, Bool.or_eq_true, beq_iff_eq] at h
  rcases h with ((rfl | rfl) | rfl) | rfl <;> decide

/-- The special characters are no letters and no digits. -/
theorem special_apart {c : Char} (h : c ∈ Token.specials) :
    (isLetter c = false ∧ c ≠ '_') ∧ isDigit c = false := by
  have hAll : Token.specials.all (fun c => !isLetter c && c != '_' && !isDigit c) = true := by
    decide
  simpa using List.all_eq_true.mp hAll c h

end Text

/-! ## Kinds and texts -/

def operatorKinds : List TokenKind :=
  [.plus, .minus, .multiply, .divide, .modulo, .assign, .equals, .notEquals, .greater,
    .greaterEqual, .less, .lessEqual, .not, .dot, .arrow]

def separatorKinds : List TokenKind :=
  [.leftParen, .rightParen, .leftBrace, .rightBrace, .leftBracket, .rightBracket, .comma,
    .semicolon]

def lineKeywords : List String :=
  ["var", "fun", "if", "else", "elif", "while", "for", "in", "return", "class", "extends", "new",
    "this", "out", "import", "from", "export"]

def lineTypes : List String := ["string", "integer", "bool", "array"]

/-- A word is neither a number nor a string nor a sign. -/
theorem TokenKind.ofWord_apart (word : String) :
    ofWord word ∉ .integer :: .string :: (operatorKinds ++ separatorKinds) := by
  have hWords : ∀ entry ∈ keywords,
      entry.2 ∉ .integer :: .string :: (operatorKinds ++ separatorKinds) := by decide
  unfold ofWord
  cases hLookup : keywords.lookup word with
  | none => decide
  | some kind => exact hWords _ (mem_of_lookup hLookup)

/-- The scanner of the line dialect knows the same words. -/
theorem Line.wordKind_eq (word : String) :
    wordKind word =
      if word ∈ lineKeywords then .keyword
      else if word ∈ lineTypes then .typeName
      else .identifier := rfl

/-- No word is taken for the mark of the end. -/
theorem Line.wordKind_ne_unknown (word : String) : wordKind word ≠ .unknown := by
  unfold wordKind
  split_ifs <;> decide

namespace Token

/-- The kind of the token in the line dialect, which has keywords of its own. -/
def lineKind (token : Token) : Line.Kind :=
  if token.kind = .integer then .number
  else if token.kind = .string then .string
  else if token.kind ∈ operatorKinds then .operator
  else if token.kind ∈ separatorKinds then .separator
  else if token.lexeme ∈ lineKeywords then .keyword
  else if token.lexeme ∈ lineTypes then .typeName
  else .identifier

/-- The text of the token in the line dialect: that of a string is without quotes. -/
def lineText (token : Token) : String :=
  if token.kind = .string then String.ofList token.lexeme.toList.tail.dropLast else token.lexeme

variable {token : Token}

theorem lineKind_operator (h : token.kind ∈ operatorKinds) : token.lineKind = .operator := by
  have hApart : ∀ kind ∈ operatorKinds, kind ≠ .integer ∧ kind ≠ .string := by decide
  obtain ⟨hInteger, hString⟩ := hApart _ h
  simp only [lineKind, hInteger, hString, h, if_false, if_true]

theorem lineKind_separator (h : token.kind ∈ separatorKinds) : token.lineKind = .separator := by
  have hApart : ∀ kind ∈ separatorKinds,
      kind ≠ .integer ∧ kind ≠ .string ∧ kind ∉ operatorKinds := by decide
  obtain ⟨hInteger, hString, hOperator⟩ := hApart _ h
  simp only [lineKind, hInteger, hString, hOperator, h, if_false, if_true]

theorem lineText_of_ne (h : token.kind ≠ .string) : token.lineText = token.lexeme :=
  if_neg h

theorem lineText_operator (h : token.kind ∈ operatorKinds) : token.lineText = token.lexeme :=
  lineText_of_ne fun hKind => absurd (hKind ▸ h) (by decide)

theorem lineText_separator (h : token.kind ∈ separatorKinds) : token.lineText = token.lexeme :=
  lineText_of_ne fun hKind => absurd (hKind ▸ h) (by decide)

/-- No token of the language becomes the mark of the end. -/
theorem lineKind_ne_unknown (token : Token) : token.lineKind ≠ .unknown := by
  unfold lineKind
  split_ifs <;> decide

/-- A word of the language has the kind in the line dialect that its text has there. -/
theorem lineKind_word (h : token.kind = TokenKind.ofWord token.lexeme) :
    token.lineKind = Line.wordKind token.lexeme := by
  have hApart := TokenKind.ofWord_apart token.lexeme
  rw [← h] at hApart
  simp only [List.mem_cons, List.mem_append, not_or] at hApart
  simp only [lineKind, hApart, if_false, Line.wordKind_eq]

theorem lineText_word (h : token.kind = TokenKind.ofWord token.lexeme) :
    token.lineText = token.lexeme :=
  lineText_of_ne fun hKind => TokenKind.ofWord_apart token.lexeme (by rw [← h, hKind]; simp)

end Token

namespace Line.Scanner

/-! ## Signs -/

def operatorPairs : List (Char × Char) :=
  [('=', '='), ('!', '='), ('<', '='), ('>', '='), ('&', '&'), ('|', '|'), ('=', '>')]

/-- The table of two-character operators is complete. -/
theorem mem_operatorPairs {c d : Char} (h : String.ofList [c, d] ∈ operators) :
    (c, d) ∈ operatorPairs := by
  have hTexts : operators.map String.toList = [
      ['+'], ['-'], ['*'], ['/'], ['%'], ['='], ['=', '='], ['!', '='], ['<'], ['>'], ['<', '='],
      ['>', '='], ['&', '&'], ['|', '|'], ['!'], ['.'], ['=', '>']] := by
    decide
  have hMem := List.mem_map_of_mem h (f := String.toList)
  rw [hTexts, String.toList_ofList] at hMem
  simpa [operatorPairs] using hMem

variable {scanner : Scanner} {c d : Char} {rest : List Char}

/-- An operator of one character, where no second one makes another of it. -/
theorem operator_single (h : ∀ d ∈ rest.head?, (c, d) ∉ operatorPairs) :
    scanner.operator c rest =
      (⟨.operator, String.ofList [c], scanner.line⟩,
        ⟨scanner.position + 1, rest, scanner.line⟩) := by
  cases rest with
  | nil => rfl
  | cons d rest => exact if_neg fun hPair => h d rfl (mem_operatorPairs hPair)

/-- Two characters that are an operator together are read as one token. -/
theorem operator_pair (h : String.ofList [c, d] ∈ operators) :
    scanner.operator c (d :: rest) =
      (⟨.operator, String.ofList [c, d], scanner.line⟩,
        ⟨scanner.position + 2, rest, scanner.line⟩) :=
  if_pos h

/-- A character that starts no name, number or string is an operator, a separator or a failure. -/
theorem tokenAt_special (hSpecial : c ∈ Mus.Token.specials) (hQuote : c ≠ '\x22') :
    scanner.tokenAt c rest =
      if String.singleton c ∈ operators then .ok (scanner.operator c rest)
      else if c ∈ separators then
        .ok (⟨.separator, String.singleton c, scanner.line⟩,
          ⟨scanner.position + 1, rest, scanner.line⟩)
      else .error ⟨c, scanner⟩ := by
  obtain ⟨⟨hLetter, hUnderscore⟩, hDigit⟩ := special_apart hSpecial
  simp [tokenAt, hLetter, hUnderscore, hDigit, hQuote]

/-! ## Lexemes -/

/-- From where the scanner stands it reads the token, as it is in the line dialect,
and stops at the rest behind it. -/
def Finds (scanner : Scanner) (token : Mus.Token) (behind : List Char) : Prop :=
  ∃ c rest after, scanner.rest = c :: rest ∧ after.rest = behind ∧
    scanner.tokenAt c rest = .ok (⟨token.lineKind, token.lineText, scanner.line⟩, after)

section

variable {token : Mus.Token} {kind : TokenKind} {behind : List Char}

/-- A character that is a token of the language by itself is an operator or a separator of the line
dialect, never both. -/
theorem symbol_cases (h : Mus.Scanner.symbol? c = some kind) :
    (c ∈ Mus.Token.specials ∧ c ≠ '\x22') ∧
      ((String.singleton c ∈ operators ∧ kind ∈ operatorKinds) ∨
        (String.singleton c ∉ operators ∧ c ∈ separators ∧ kind ∈ separatorKinds)) := by
  unfold Mus.Scanner.symbol? at h
  split at h <;> cases h <;> decide

/-- A character that is a token of the language by itself starts no operator of two characters, so
the line dialect does not read further either. -/
theorem symbol_not_paired (h : Mus.Scanner.symbol? c = some kind) (d : Char) :
    (c, d) ∉ operatorPairs := by
  intro hMem
  have hAll : operatorPairs.all (fun pair => (Mus.Scanner.symbol? pair.1).isNone) = true := by
    decide
  have hNone := List.all_eq_true.mp hAll _ hMem
  rw [h] at hNone
  cases hNone

/-- The token that starts right here is the one that is found, since nothing has to be skipped. -/
theorem finds_of_tokenAt {found : Token} {after : Scanner} (hRest : scanner.rest = c :: rest)
    (hRun : scanner.tokenAt c rest = .ok (found, after)) (hLine : found.line = scanner.line)
    (hKind : token.lineKind = found.kind) (hText : token.lineText = found.text) :
    scanner.Finds token after.rest := by
  refine ⟨c, rest, after, hRest, rfl, ?_⟩
  rw [hRun, hKind, hText, ← hLine]

/-- Tokens of one character agree. -/
theorem finds_symbol (hSymbol : Mus.Scanner.symbol? c = some kind) (hKind : token.kind = kind)
    (hText : token.lexeme = String.ofList [c]) (hRest : scanner.rest = c :: behind) :
    scanner.Finds token behind := by
  subst hKind
  obtain ⟨⟨hSpecial, hQuote⟩, ⟨hOperator, hKinds⟩ | ⟨hOperator, hSeparator, hKinds⟩⟩ :=
    symbol_cases hSymbol
  · have hRun := @tokenAt_special scanner c behind hSpecial hQuote
    rw [if_pos hOperator, operator_single fun d _ => symbol_not_paired hSymbol d] at hRun
    exact finds_of_tokenAt hRest hRun rfl (Token.lineKind_operator hKinds)
      ((Token.lineText_operator hKinds).trans hText)
  · have hRun := @tokenAt_special scanner c behind hSpecial hQuote
    rw [if_neg hOperator, if_pos hSeparator] at hRun
    exact finds_of_tokenAt hRest hRun rfl (Token.lineKind_separator hKinds)
      ((Token.lineText_separator hKinds).trans hText)

/-- What follows makes no other sign of it. -/
theorem finds_sign {seconds : List Char} (hSign : (c, seconds) ∈ openSigns)
    (hNext : ∀ d ∈ behind.head?, d ∉ seconds) (hKind : token.kind = (classify [c]).1)
    (hText : token.lexeme = String.ofList [c]) (hRest : scanner.rest = c :: behind) :
    scanner.Finds token behind := by
  have hTable : ∀ entry ∈ openSigns, (entry.1 ∈ Mus.Token.specials ∧ entry.1 ≠ '\x22') ∧
      String.singleton entry.1 ∈ operators ∧ (classify [entry.1]).1 ∈ operatorKinds ∧
      operatorPairs.all (fun pair => pair.1 != entry.1 || entry.2.contains pair.2) = true := by
    decide
  obtain ⟨⟨hSpecial, hQuote⟩, hOperator, hKinds, hPairs⟩ := hTable _ hSign
  rw [← hKind] at hKinds
  have hSingle : ∀ d ∈ behind.head?, (c, d) ∉ operatorPairs := by
    intro d hHead hMem
    have hSecond := List.all_eq_true.mp hPairs _ hMem
    exact hNext d hHead (by simpa using hSecond)
  have hRun := @tokenAt_special scanner c behind hSpecial hQuote
  rw [if_pos hOperator, operator_single hSingle] at hRun
  exact finds_of_tokenAt hRest hRun rfl (Token.lineKind_operator hKinds)
    ((Token.lineText_operator hKinds).trans hText)

/-- Tokens of two characters agree. -/
theorem finds_pair (hPair : (kind, c, d) ∈ Mus.Token.pairs) (hKind : token.kind = kind)
    (hText : token.lexeme = String.ofList [c, d]) (hRest : scanner.rest = c :: d :: behind) :
    scanner.Finds token behind := by
  have hTable : ∀ entry ∈ Mus.Token.pairs,
      (entry.2.1 ∈ Mus.Token.specials ∧ entry.2.1 ≠ '\x22') ∧
      String.singleton entry.2.1 ∈ operators ∧ entry.1 ∈ operatorKinds ∧
      String.ofList [entry.2.1, entry.2.2] ∈ operators := by
    decide
  obtain ⟨⟨hSpecial, hQuote⟩, hOperator, hKinds, hDouble⟩ := hTable _ hPair
  rw [← hKind] at hKinds
  have hRun := @tokenAt_special scanner c (d :: behind) hSpecial hQuote
  rw [if_pos hOperator, operator_pair hDouble] at hRun
  exact finds_of_tokenAt hRest hRun rfl (Token.lineKind_operator hKinds)
    ((Token.lineText_operator hKinds).trans hText)

/-- Without a backslash a string is read up to its closing quote. -/
theorem stringText_append {body : List Char} (hQuote : '\x22' ∉ body) (hEscape : '\\' ∉ body)
    (behind : List Char) :
    stringText (body ++ '\x22' :: behind) = (body, body.length + 1, behind) := by
  induction body with
  | nil => rfl
  | cons c body ih =>
      simp only [List.mem_cons, not_or] at hQuote hEscape
      have hRest := ih hQuote.2 hEscape.2
      rw [List.cons_append, stringText, hRest, if_neg (Ne.symm hQuote.1)]
      · rfl
      · exact fun h _ => hEscape.1 h.symm
      · exact fun _ _ h _ => hEscape.1 h.symm

/-- Quotations agree as long as no backslash is in them, which only the line dialect gives a meaning
to. -/
theorem finds_quotation {body : List Char} (hQuote : '\x22' ∉ body) (hEscape : '\\' ∉ body)
    (hKind : token.kind = .string)
    (hText : token.lexeme = String.ofList ('\x22' :: (body ++ ['\x22'])))
    (hRest : scanner.rest = '\x22' :: (body ++ '\x22' :: behind)) :
    scanner.Finds token behind := by
  have hRun : scanner.tokenAt '\x22' (body ++ '\x22' :: behind) =
      .ok (⟨.string, String.ofList body, scanner.line⟩,
        ⟨scanner.position + 1 + (body.length + 1), behind, scanner.line⟩) := by
    simp only [tokenAt, stringText_append hQuote hEscape behind]
    rfl
  refine finds_of_tokenAt hRest hRun rfl ?_ ?_
  · simp only [Token.lineKind, hKind]
    rfl
  · unfold Token.lineText
    rw [if_pos hKind, hText, String.toList_ofList, List.tail_cons, List.dropLast_concat]

/-- A run ends before the first character that does not belong to it. -/
theorem run_append {belongs : Char → Bool} {text : List Char} (hText : text.all belongs = true)
    (hNext : ∀ d ∈ behind.head?, belongs d = false) (kindOf : String → Kind)
    (hRest : scanner.rest = text ++ behind) :
    scanner.run belongs kindOf =
      (⟨kindOf (String.ofList text), String.ofList text, scanner.line⟩,
        ⟨scanner.position + text.length, behind, scanner.line⟩) := by
  obtain ⟨hTake, hDrop⟩ := span_append (List.all_eq_true.mp hText) hNext
  unfold run
  rw [hRest, hTake, hDrop]

/-- A number is read up to the first character that is no digit. -/
theorem tokenAt_number {run : List Char} (hDigits : (c :: run).all isDigit = true)
    (hNext : ∀ d ∈ behind.head?, isDigit d = false)
    (hRest : scanner.rest = c :: (run ++ behind)) :
    scanner.tokenAt c (run ++ behind) =
      .ok (⟨.number, String.ofList (c :: run), scanner.line⟩,
        ⟨scanner.position + (c :: run).length, behind, scanner.line⟩) := by
  have hDigit : isDigit c = true := List.all_eq_true.mp hDigits c (List.mem_cons_self ..)
  have hUnderscore : c ≠ '_' := by
    rintro rfl
    exact absurd hDigit (by decide)
  have hRun : scanner.tokenAt c (run ++ behind) = .ok (scanner.run isDigit fun _ => .number) := by
    simp [tokenAt, isLetter_of_isDigit hDigit, hUnderscore, hDigit]
  rwa [run_append hDigits hNext _ hRest] at hRun

/-- Runs of digits agree. What follows a point is another token in both. -/
theorem finds_number {run : List Char} (hDigits : (c :: run).all isDigit = true)
    (hNext : ∀ d ∈ behind.head?, isDigit d = false) (hKind : token.kind = .integer)
    (hText : token.lexeme = String.ofList (c :: run))
    (hRest : scanner.rest = c :: (run ++ behind)) :
    scanner.Finds token behind := by
  refine finds_of_tokenAt hRest (tokenAt_number hDigits hNext hRest) rfl ?_ ?_
  · simp only [Token.lineKind, hKind, if_true]
  · exact (Token.lineText_of_ne (by rw [hKind]; decide)).trans hText

/-- A word is read up to the first character that belongs to no word. -/
theorem tokenAt_word {run : List Char} (hFirst : isLetter c = true ∨ c = '_')
    (hWord : run.all isWordChar = true) (hNext : ∀ d ∈ behind.head?, isWordChar d = false)
    (hRest : scanner.rest = c :: (run ++ behind)) :
    scanner.tokenAt c (run ++ behind) =
      .ok (⟨wordKind (String.ofList (c :: run)), String.ofList (c :: run), scanner.line⟩,
        ⟨scanner.position + (c :: run).length, behind, scanner.line⟩) := by
  have hAll : (c :: run).all isWordChar = true := by
    rw [List.all_cons, hWord, Bool.and_true]
    rcases hFirst with hLetter | rfl
    · exact isWordChar_of_isLetter hLetter
    · rfl
  have hRun : scanner.tokenAt c (run ++ behind) = .ok (scanner.run isWordChar wordKind) := by
    simp [tokenAt, hFirst]
  rwa [run_append hAll hNext _ hRest] at hRun

/-- Words agree up to their kinds: both languages read on as long as characters can continue a
name. -/
theorem finds_word {run : List Char} (hFirst : isLetter c = true ∨ c = '_')
    (hWord : run.all isWordChar = true) (hNext : ∀ d ∈ behind.head?, isWordChar d = false)
    (hKind : token.kind = TokenKind.ofWord token.lexeme)
    (hText : token.lexeme = String.ofList (c :: run))
    (hRest : scanner.rest = c :: (run ++ behind)) :
    scanner.Finds token behind := by
  refine finds_of_tokenAt hRest (tokenAt_word hFirst hWord hNext hRest) rfl ?_ ?_
  · rw [Token.lineKind_word hKind, hText]
  · exact (Token.lineText_word hKind).trans hText

theorem not_special_of_isDigit (h : isDigit c = true) : c ∉ Mus.Token.specials := by
  intro hSpecial
  rw [(special_apart hSpecial).2] at h
  cases h

theorem not_special_of_first (h : isLetter c = true ∨ c = '_') : c ∉ Mus.Token.specials := by
  intro hSpecial
  obtain ⟨hLetter, hUnderscore⟩ := (special_apart hSpecial).1
  rcases h with h | h
  · rw [hLetter] at h
    cases h
  · exact hUnderscore h

theorem isDigit_of_first (h : isLetter c = true ∨ c = '_') : isDigit c = false := by
  rcases h with hLetter | rfl
  · by_contra hDigit
    rw [isLetter_of_isDigit (by simpa using hDigit)] at hLetter
    cases hLetter
  · rfl

/-- Every lexeme that is as long as it can be is read up to its end. -/
theorem finds_of_longest {text : List Char} (hLongest : Longest behind text) (hNonempty : text ≠ [])
    (hEscape : '\\' ∉ text) (hClass : (token.kind, token.literal) = classify text)
    (hText : token.lexeme = String.ofList text) (hRest : scanner.rest = text ++ behind) :
    scanner.Finds token behind := by
  have hKind := congrArg Prod.fst hClass
  cases hLongest with
  | symbol hMem =>
      obtain ⟨kind, hSymbol⟩ := mem_symbols_iff.mp hMem
      rw [classify_symbol hSymbol] at hKind
      exact finds_symbol hSymbol hKind hText hRest
  | sign hSign hNext => exact finds_sign hSign hNext hKind hText hRest
  | pair hPair =>
      rw [classify_pair hPair] at hKind
      exact finds_pair hPair hKind hText hRest
  | @quotation body hBody =>
      rw [classify_quotation] at hKind
      refine finds_quotation hBody (fun hMem => hEscape ?_) hKind hText ?_
      · exact List.mem_cons_of_mem _ (List.mem_append_left _ hMem)
      · rw [hRest, List.cons_append, List.append_assoc]
        rfl
  | number hDigits hNext hPoint =>
      obtain ⟨c, run, rfl⟩ := List.exists_cons_of_ne_nil hNonempty
      have hDigit := List.all_eq_true.mp hDigits c (List.mem_cons_self ..)
      rw [classify_number (not_special_of_isDigit hDigit) hDigits] at hKind
      exact finds_number hDigits hNext hKind hText hRest
  | @word c run hFirst hRun hNext =>
      rw [classify_word (not_special_of_first hFirst) (isDigit_of_first hFirst), ← hText] at hKind
      exact finds_word hFirst hRun hNext hKind hText hRest

end

/-! ## Gaps -/

section

variable {position line : Nat} {gap behind : List Char}

/-- A comment goes on up to a line end. -/
theorem skipFrom_body {body : List Char} (hBody : '\n' ∉ body) (position line : Nat) :
    skipFrom true position line (body ++ rest) =
      skipFrom true (position + body.length) line rest := by
  induction body generalizing position with
  | nil => rfl
  | cons c body ih =>
      simp only [List.mem_cons, not_or] at hBody
      rw [List.cons_append, skipFrom, if_pos (by simpa using Ne.symm hBody.1), ih hBody.2,
        List.length_cons, Nat.add_assoc, Nat.add_comm 1]

/-- At a line end or at the end of the source a comment is over. -/
theorem skipFrom_over (h : ∀ c ∈ rest.head?, c = '\n') (position line : Nat) :
    skipFrom true position line rest = skipFrom false position line rest := by
  cases rest with
  | nil => rfl
  | cons c rest =>
      rw [h c rfl, skipFrom, skipFrom]
      rfl

/-- A gap without comments of slashes is skipped. -/
theorem exists_skipFrom (hGap : GapBefore behind gap) (hSlashes : ¬['/', '/'] <:+: gap)
    (position line : Nat) :
    ∃ position' line', skipFrom false position line (gap ++ behind) =
      skipFrom false position' line' behind := by
  induction hGap generalizing position line with
  | nil => exact ⟨position, line, rfl⟩
  | @blank c gap hBlank hGap ih =>
      have hRest : ¬['/', '/'] <:+: gap := fun h =>
        hSlashes (h.trans (List.suffix_cons c gap).isInfix)
      obtain ⟨position', line', hSkip⟩ :=
        ih hRest (position + 1) (if c = '\n' then line + 1 else line)
      refine ⟨position', line', ?_⟩
      rw [← hSkip, List.cons_append, skipFrom, if_neg (by simp), if_pos (isBlank_of_isGap hBlank)]
  | @comment mark body gap hMark hBody hEnd hGap ih =>
      rcases hMark with rfl | rfl
      · have hRest : ¬['/', '/'] <:+: gap := fun h =>
          hSlashes (h.trans (List.suffix_append ('-' :: '-' :: body) gap).isInfix)
        obtain ⟨position', line', hSkip⟩ := ih hRest (position + 1 + 1 + body.length) line
        refine ⟨position', line', ?_⟩
        rw [← hSkip, ← skipFrom_over hEnd, ← skipFrom_body hBody, ← List.append_assoc]
        rfl
      · exact absurd (List.prefix_append ['/', '/'] (body ++ gap)).isInfix hSlashes

/-- Skipping stops at what is neither a blank nor the start of a comment. -/
theorem skipFrom_stop (hBlank : isBlank c = false) (hDash : c = '-' → rest.head? ≠ some '-')
    (position line : Nat) :
    skipFrom false position line (c :: rest) = ⟨position, c :: rest, line⟩ := by
  rw [skipFrom, if_neg (by simp), if_neg (by simp [hBlank]), if_neg]
  intro h
  simp only [Bool.and_eq_true, beq_iff_eq] at h
  exact hDash h.1 h.2

/-- Nothing is skipped in front of a digit. -/
theorem no_gap_of_isDigit (h : isDigit c = true) : isBlank c = false ∧ c ≠ '-' := by
  refine ⟨isBlank_of_isDigit h, ?_⟩
  rintro rfl
  exact absurd h (by decide)

/-- Nothing is skipped in front of a word. -/
theorem no_gap_of_first (h : isLetter c = true ∨ c = '_') : isBlank c = false ∧ c ≠ '-' := by
  constructor
  · rcases h with hLetter | rfl
    · exact isBlank_of_isLetter hLetter
    · decide
  · rintro rfl
    exact absurd h (by decide)

/-- No gap goes on where a lexeme starts. -/
theorem skipFrom_longest {text : List Char} (hLongest : Longest behind text) (hNonempty : text ≠ [])
    (position line : Nat) :
    skipFrom false position line (text ++ behind) = ⟨position, text ++ behind, line⟩ := by
  cases hLongest with
  | symbol hSymbol =>
      have hTable : symbols.all (fun c => !isBlank c && c != '-') = true := by decide
      obtain ⟨hBlank, hDash⟩ := by simpa using List.all_eq_true.mp hTable _ hSymbol
      exact skipFrom_stop hBlank (fun h => absurd h hDash) _ _
  | @sign c seconds hSign hNext =>
      have hTable : ∀ entry ∈ openSigns,
          isBlank entry.1 = false ∧ (entry.1 = '-' → '-' ∈ entry.2) := by decide
      obtain ⟨hBlank, hDash⟩ := hTable _ hSign
      exact skipFrom_stop hBlank (fun h hHead => hNext '-' hHead (hDash h)) _ _
  | @pair kind first second hPair =>
      have hTable : ∀ entry ∈ Mus.Token.pairs, isBlank entry.2.1 = false ∧ entry.2.1 ≠ '-' := by
        decide
      obtain ⟨hBlank, hDash⟩ := hTable _ hPair
      exact skipFrom_stop hBlank (fun h => absurd h hDash) _ _
  | quotation => exact skipFrom_stop (by decide) (fun h => absurd h (by decide)) _ _
  | number hDigits =>
      obtain ⟨c, run, rfl⟩ := List.exists_cons_of_ne_nil hNonempty
      obtain ⟨hBlank, hDash⟩ := no_gap_of_isDigit
        (List.all_eq_true.mp hDigits c (List.mem_cons_self ..))
      exact skipFrom_stop hBlank (fun h => absurd h hDash) _ _
  | @word c run hFirst =>
      obtain ⟨hBlank, hDash⟩ := no_gap_of_first hFirst
      exact skipFrom_stop hBlank (fun h => absurd h hDash) _ _

end

/-! ## Whole sources -/

section

variable {before behind last : List Char} {segment : Segment} {segments : List Segment}

/-- A gap is skipped and the token behind it is found. -/
theorem exists_token (hFits : segment.Fits before behind) (hSlashes : ¬['/', '/'] <:+: segment.gap)
    (hEscape : '\\' ∉ segment.lexeme) (hRest : scanner.rest = segment.text ++ behind) :
    ∃ line after, after.rest = behind ∧ scanner.token =
      .ok (⟨segment.token.lineKind, segment.token.lineText, line⟩, after) := by
  obtain ⟨position, line, hSkip⟩ :=
    exists_skipFrom hFits.gap hSlashes scanner.position scanner.line
  rw [skipFrom_longest hFits.longest hFits.nonempty] at hSkip
  have hStart : scanner.skip = ⟨position, segment.lexeme ++ behind, line⟩ := by
    unfold skip
    rw [hRest, Segment.text, List.append_assoc, hSkip]
  have hText : segment.token.lexeme = String.ofList segment.lexeme :=
    String.ofList_toList.symm
  obtain ⟨c, rest, after, hCons, hAfter, hRun⟩ :=
    @finds_of_longest ⟨position, segment.lexeme ++ behind, line⟩ segment.token behind _
      hFits.longest hFits.nonempty hEscape hFits.classified hText rfl
  refine ⟨line, after, hAfter, ?_⟩
  unfold token
  dsimp only at hCons ⊢
  rw [hStart, hCons, ← hRun, hCons]

/-- At the last gap the source is over. -/
theorem exists_token_end (hGap : GapBefore [] last) (hSlashes : ¬['/', '/'] <:+: last)
    (hRest : scanner.rest = last) :
    ∃ line after, scanner.token = .ok (⟨.unknown, "", line⟩, after) := by
  obtain ⟨position, line, hSkip⟩ := exists_skipFrom hGap hSlashes scanner.position scanner.line
  have hStart : scanner.skip = ⟨position, [], line⟩ := by
    unfold skip
    rw [hRest, ← List.append_nil last, hSkip]
    rfl
  unfold token
  rw [hStart]
  exact ⟨line, _, rfl⟩

/-- The tokens of the segments are found one after another, and then the end. -/
theorem exists_tokens (hCut : Cut before segments last)
    (hSlashes : ¬['/', '/'] <:+: segments.flatMap Segment.text ++ last)
    (hEscape : '\\' ∉ segments.flatMap Segment.text)
    (hRest : scanner.rest = segments.flatMap Segment.text ++ last) {fuel : Nat}
    (hFuel : segments.length < fuel) :
    ∃ found line after, tokens fuel scanner = (found ++ [⟨.unknown, "", line⟩], .ok after) ∧
      found.map (fun token => (token.kind, token.text)) =
        segments.map fun segment => (segment.token.lineKind, segment.token.lineText) := by
  induction segments generalizing before scanner fuel with
  | nil =>
      obtain ⟨fuel, rfl⟩ := Nat.exists_eq_succ_of_ne_zero (Nat.ne_of_gt hFuel)
      obtain ⟨line, after, hToken⟩ := exists_token_end hCut.last_gap hSlashes hRest
      refine ⟨[], line, after, ?_, rfl⟩
      simp only [tokens, hToken, if_true, List.nil_append]
  | cons segment segments ih =>
      obtain ⟨fuel, rfl⟩ := Nat.exists_eq_succ_of_ne_zero (Nat.ne_of_gt (Nat.zero_lt_of_lt hFuel))
      rw [List.flatMap_cons, List.append_assoc] at hSlashes hRest
      rw [List.flatMap_cons, List.mem_append, not_or] at hEscape
      have hText : ¬['/', '/'] <:+: segment.text := fun h =>
        hSlashes (h.trans (List.prefix_append ..).isInfix)
      have hGap : ¬['/', '/'] <:+: segment.gap := fun h =>
        hText (h.trans (List.prefix_append _ segment.lexeme).isInfix)
      have hLexeme : '\\' ∉ segment.lexeme := fun h => hEscape.1 (List.mem_append_right _ h)
      obtain ⟨line, next, hNext, hToken⟩ := exists_token hCut.1 hGap hLexeme hRest
      obtain ⟨found, lineEnd, after, hFound, hViews⟩ := ih hCut.2
        (fun h => hSlashes (h.trans (List.suffix_append ..).isInfix)) hEscape.2 hNext
        (Nat.lt_of_succ_lt_succ hFuel)
      refine ⟨⟨segment.token.lineKind, segment.token.lineText, line⟩ :: found, lineEnd, after,
        ?_, ?_⟩
      · simp only [tokens, hToken, if_neg (Token.lineKind_ne_unknown segment.token), hFound,
          List.cons_append]
      · rw [List.map_cons, List.map_cons, hViews]

end

end Line.Scanner

/-- No segment is empty, so the characters of a source bound the number of its tokens. -/
theorem Cut.length_le {before last : List Char} {segments : List Segment}
    (h : Cut before segments last) :
    segments.length ≤ (segments.flatMap Segment.text).length := by
  induction segments generalizing before with
  | nil => exact Nat.le_refl _
  | cons segment segments ih =>
      have hRest := ih h.2
      have hLexeme := List.length_pos_of_ne_nil h.1.nonempty
      rw [List.flatMap_cons, List.length_append, List.length_cons, Segment.text, List.length_append]
      omega

/-- The end mark is no segment of a source. -/
theorem Cut.kind_ne_eof {before last : List Char} {segments : List Segment} {segment : Segment}
    (h : Cut before segments last) (hSegment : segment ∈ segments) :
    segment.token.kind ≠ .eof := by
  obtain ⟨front, back, hSplit⟩ := List.append_of_mem hSegment
  have hKind : segment.token.kind = (classify segment.lexeme).1 :=
    congrArg Prod.fst (h.fits hSplit).classified
  rw [hKind]
  exact classify_ne_eof _

/-- The two scanners agree. If a source without a backslash and without two slashes
side by side can be scanned, the scanner of the line dialect comes to its end, too,
and it finds the same tokens up to the end mark: in their order, each with its text,
and with the kind that belongs to its kind. -/
theorem line_tokenize_agrees {source : String} {tokens : List Token}
    (hEscape : '\\' ∉ source.toList) (hSlashes : ¬['/', '/'] <:+: source.toList)
    (hTokens : tokenize source = .ok tokens) :
    ∃ found last, Line.tokenize source = .ok (found, last) ∧
      found.map (fun token => (token.kind, token.text)) =
        (tokens.filter (·.kind ≠ .eof)).map fun token => (token.lineKind, token.lineText) := by
  obtain ⟨segments, last, mark, rfl, hMark, hSource, hCut⟩ := exists_cut hTokens
  rw [hSource] at hSlashes hEscape
  have hFuel : segments.length < source.toList.length + 1 := by
    have hLength := hCut.length_le
    rw [hSource, List.length_append]
    omega
  obtain ⟨found, line, after, hFound, hViews⟩ := @Line.Scanner.exists_tokens
    (.ofChars source.toList) [] last segments hCut hSlashes
    (fun h => hEscape (List.mem_append_left _ h)) hSource _ hFuel
  have hKinds : ∀ token ∈ found, token.kind ≠ .unknown := by
    intro token hToken hKind
    have hView : (token.kind, token.text) ∈
        segments.map fun segment => (segment.token.lineKind, segment.token.lineText) :=
      hViews ▸ List.mem_map_of_mem hToken
    obtain ⟨segment, -, hSegment⟩ := List.mem_map.mp hView
    exact segment.token.lineKind_ne_unknown ((Prod.mk.inj hSegment).1.trans hKind)
  have hNoMark : ∀ token ∈ segments.map Segment.token, token.kind ≠ .eof := by
    intro token hToken
    obtain ⟨segment, hSegment, rfl⟩ := List.mem_map.mp hToken
    exact hCut.kind_ne_eof hSegment
  refine ⟨found, after, ?_, ?_⟩
  · unfold Line.tokenize Line.scan
    rw [hFound]
    dsimp only
    rw [List.filter_append, List.filter_eq_self.mpr (by simpa using hKinds)]
    simp
  · rw [hViews, List.filter_append, List.filter_eq_self.mpr (by simpa using hNoMark)]
    simp [hMark, Function.comp_def]

/-- A name, an arrow, a string with a hyphen, a comment, a keyword, a number in front of
a point and a slash, and two words that only one of the languages knows. -/
def agreeSample : String := "for_1=>\x22a-b\x22 -- c\nfor[7./y]integer true"

/-- What the scanner of the line dialect finds in the sample. -/
def agreeSampleFound : List (Line.Kind × String) :=
  [(.identifier, "for_1"), (.operator, "=>"), (.string, "a-b"), (.keyword, "for"),
    (.separator, "["), (.number, "7"), (.operator, "."), (.operator, "/"), (.identifier, "y"),
    (.separator, "]"), (.typeName, "integer"), (.identifier, "true")]

/-- On the sample both scanners succeed, and the line dialect has kinds of its own for the words. -/
theorem line_tokenize_agreeSample :
    '\\' ∉ agreeSample.toList ∧ ¬['/', '/'] <:+: agreeSample.toList ∧
      (∃ tokens, tokenize agreeSample = .ok tokens ∧ tokens.length = 13) ∧
      ∃ found last, Line.tokenize agreeSample = .ok (found, last) ∧
        found.map (fun token => (token.kind, token.text)) = agreeSampleFound := by
  have hTokens : tokenize agreeSample = .ok [
      ⟨.identifier, "for_1", .nothing, 1, 1⟩, ⟨.arrow, "=>", .nothing, 1, 6⟩,
      ⟨.string, "\x22a-b\x22", .str "a-b", 1, 8⟩, ⟨.forWord, "for", .nothing, 2, 1⟩,
      ⟨.leftBracket, "[", .nothing, 2, 4⟩, ⟨.integer, "7", .int 7, 2, 5⟩,
      ⟨.dot, ".", .nothing, 2, 6⟩, ⟨.divide, "/", .nothing, 2, 7⟩,
      ⟨.identifier, "y", .nothing, 2, 8⟩, ⟨.rightBracket, "]", .nothing, 2, 9⟩,
      ⟨.identifier, "integer", .nothing, 2, 10⟩, ⟨.boolean, "true", .bool true, 2, 18⟩,
      ⟨.eof, "", .nothing, 2, 22⟩] := by
    with_unfolding_all rfl
  have hEscape : '\\' ∉ agreeSample.toList := by decide
  have hSlashes : ¬['/', '/'] <:+: agreeSample.toList := by decide
  obtain ⟨found, last, hRun, hFound⟩ := line_tokenize_agrees hEscape hSlashes hTokens
  have hSample : found.map (fun token => (token.kind, token.text)) = agreeSampleFound := by
    rw [hFound]
    decide
  exact ⟨hEscape, hSlashes, ⟨_, hTokens, rfl⟩, found, last, hRun, hSample⟩

end Mus
