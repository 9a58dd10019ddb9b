import Mus.Proofs.Line.Agreement
import Mus.Text.Quoted

/-! Sources made of texts with single spaces between them. Words, numbers, operators and
separators are found again one by one, each with its kind. Two operators are not: an operator is
recognised by its first character, and the conjunction and the disjunction start with characters
that are no operators themselves. -/
namespace Mus.Line

open Mus.Text

/-- The texts of tokens with their kinds. -/
inductive Lexeme : String → Kind → Prop where
  | keyword {text : String} (h : text ∈ keywords) : Lexeme text .keyword
  | typeWord {text : String} (h : text ∈ typeWords) : Lexeme text .typeName
  | identifier {c : Char} {run : List Char} (hFirst : isLetter c = true ∨ c = '_')
      (hRun : run.all isWordChar = true) (hKeyword : String.ofList (c :: run) ∉ keywords)
      (hType : String.ofList (c :: run) ∉ typeWords) :
      Lexeme (String.ofList (c :: run)) .identifier
  | number {digits : List Char} (hNonempty : digits ≠ []) (hDigits : digits.all isDigit = true) :
      Lexeme (String.ofList digits) .number
  | operator {text : String} (h : text ∈ operators) : Lexeme text .operator
  | separator {c : Char} (h : c ∈ separators) : Lexeme (String.singleton c) .separator

/-- The operators that start with a character that is no operator. -/
def unreadable : List String := ["&&", "||"]

/-- No lexeme is the mark of the end. -/
theorem Lexeme.kind_ne_unknown {text : String} {kind : Kind} (h : Lexeme text kind) :
    kind ≠ .unknown := by
  cases h <;> decide

theorem Lexeme.ne_empty {text : String} {kind : Kind} (h : Lexeme text kind) : text ≠ "" := by
  have hAll : (keywords ++ typeWords ++ operators).all (· != "") = true := by decide +kernel
  have hListed : text ∈ keywords ++ typeWords ++ operators → text ≠ "" := fun hMem => by
    simpa using List.all_eq_true.mp hAll text hMem
  cases h with
  | keyword h => exact hListed (by simp [h])
  | typeWord h => exact hListed (by simp [h])
  | operator h => exact hListed (by simp [h])
  | identifier => simp
  | number hNonempty => simpa using hNonempty
  | separator => simp

/-- The characters that are operators, and start the readable ones. -/
def operatorStarts : List Char := ['+', '-', '*', '/', '%', '=', '<', '>', '!', '.']

/-- What starts a readable operator is an operator itself and starts nothing else. -/
theorem operatorStarts_apart {c : Char} (h : c ∈ operatorStarts) :
    c ∈ Mus.Token.specials ∧ c ≠ '\x22' ∧ String.singleton c ∈ operators ∧ isBlank c = false := by
  have hAll : operatorStarts.all (fun c => Mus.Token.specials.contains c && c != '\x22' &&
      operators.contains (String.singleton c) && !isBlank c) = true := by
    decide +kernel
  simpa [and_assoc] using List.all_eq_true.mp hAll c h

/-- A readable operator has one or two characters, and the first is an operator itself. -/
theorem operator_cases {text : String} (h : text ∈ operators) (hReadable : text ∉ unreadable) :
    ∃ c ∈ operatorStarts, text = String.ofList [c] ∨ ∃ d, text = String.ofList [c, d] := by
  have hAll : operators.all (fun text => unreadable.contains text ||
      operatorStarts.contains (text.toList.headD ' ') &&
        decide (text.toList.length ≤ 2)) = true := by
    decide +kernel
  have hShape : text.toList.headD ' ' ∈ operatorStarts ∧ text.toList.length ≤ 2 := by
    simpa [hReadable] using List.all_eq_true.mp hAll text h
  have hText : text = String.ofList text.toList := String.ofList_toList.symm
  rw [hText]
  obtain ⟨hStart, hLength⟩ := hShape
  generalize text.toList = chars at hStart hLength
  rcases chars with _ | ⟨c, _ | ⟨d, _ | ⟨e, more⟩⟩⟩
  · exact absurd hStart (by decide)
  · exact ⟨c, hStart, .inl rfl⟩
  · exact ⟨c, hStart, .inr ⟨d, rfl⟩⟩
  · simp at hLength

/-- Keywords and the words for types are words. -/
theorem reserved_cases {text : String} (h : text ∈ keywords ++ typeWords) :
    ∃ c run, text = String.ofList (c :: run) ∧ isLetter c = true ∧ run.all isWordChar = true := by
  have hAll : (keywords ++ typeWords).all (fun text => isLetter (text.toList.headD ' ') &&
      text.toList.tail.all isWordChar) = true := by
    decide +kernel
  have hShape : isLetter (text.toList.headD ' ') = true ∧
      text.toList.tail.all isWordChar = true := by
    simpa using List.all_eq_true.mp hAll text h
  have hText : text = String.ofList text.toList := String.ofList_toList.symm
  rw [hText]
  obtain ⟨hStart, hRun⟩ := hShape
  generalize text.toList = chars at hStart hRun
  rcases chars with _ | ⟨c, run⟩
  · exact absurd hStart (by decide)
  · exact ⟨c, run, rfl, hStart, hRun⟩

theorem wordKind_of_typeWord {text : String} (h : text ∈ typeWords) :
    wordKind text = .typeName := by
  have hAll : typeWords.all (fun text => !keywords.contains text) = true := by decide +kernel
  have hKeyword : text ∉ keywords := by simpa using List.all_eq_true.mp hAll text h
  rw [wordKind, if_neg hKeyword, if_pos h]

/-- A separator starts nothing but itself, not even a comment. -/
theorem separator_apart {c : Char} (h : c ∈ separators) :
    c ∈ Mus.Token.specials ∧ c ≠ '\x22' ∧ String.singleton c ∉ operators ∧
      isBlank c = false ∧ c ≠ '-' := by
  have hAll : separators.all (fun c => Mus.Token.specials.contains c && c != '\x22' &&
      !operators.contains (String.singleton c) && !isBlank c && c != '-') = true := by
    decide +kernel
  simpa [and_assoc] using List.all_eq_true.mp hAll c h

/-- An unreadable operator is a character twice that starts no token. -/
theorem unreadable_cases {text : String} (h : text ∈ unreadable) :
    ∃ c, text = String.ofList [c, c] ∧ (isLetter c || c == '_') = false ∧ isDigit c = false ∧
      c ≠ '\x22' ∧ String.singleton c ∉ operators ∧ c ∉ separators ∧ isBlank c = false ∧
      c ≠ '-' := by
  simp only [unreadable, List.mem_cons, List.not_mem_nil, or_false] at h
  rcases h with rfl | rfl
  · exact ⟨'&', rfl, by decide +kernel⟩
  · exact ⟨'|', rfl, by decide +kernel⟩

/-! ## Texts with spaces between them -/

theorem toList_joined_cons (text : String) (texts : List String) :
    (joined " " (text :: texts)).toList =
      text.toList ++ texts.flatMap fun next => ' ' :: next.toList := by
  induction texts generalizing text with
  | nil => simp [joined]
  | cons next texts ih => simp [joined, ih next]

/-- There are no more texts than characters, so the fuel lasts. -/
theorem length_le_joined {texts : List String} (h : ∀ text ∈ texts, text ≠ "") :
    texts.length ≤ (joined " " texts).toList.length := by
  have hSpaced : ∀ texts : List String,
      texts.length ≤ (texts.flatMap fun next => ' ' :: next.toList).length := by
    intro texts
    induction texts with
    | nil => simp
    | cons text texts ih =>
        simp only [List.flatMap_cons, List.length_append, List.length_cons]
        omega
  cases texts with
  | nil => simp
  | cons text texts =>
      have hPositive : 0 < text.toList.length := by
        rw [List.length_pos_iff]
        simpa using h text (List.mem_cons_self ..)
      have hRest := hSpaced texts
      rw [toList_joined_cons, List.length_append, List.length_cons]
      omega

namespace Scanner

variable {scanner : Scanner} {text : String} {kind : Kind} {c : Char} {rest behind : List Char}

/-- The token is read where the scanner stands. -/
theorem token_of_start (hRest : scanner.rest = c :: rest) (hBlank : isBlank c = false)
    (hDash : c = '-' → rest.head? ≠ some '-') : scanner.token = scanner.tokenAt c rest := by
  have hSkip : scanner.skip = scanner := by
    unfold skip
    rw [hRest, skipFrom_stop hBlank hDash, ← hRest]
  unfold token
  dsimp only
  rw [hSkip, hRest]

/-- A space is skipped. -/
theorem token_space (position line : Nat) (rest : List Char) :
    token ⟨position, ' ' :: rest, line⟩ = token ⟨position + 1, rest, line⟩ := rfl

/-- A space in front is passed over. -/
theorem tokens_space (fuel position line : Nat) (rest : List Char) :
    tokens (fuel + 1) ⟨position, ' ' :: rest, line⟩ =
      tokens (fuel + 1) ⟨position + 1, rest, line⟩ := by
  rw [tokens, tokens, token_space]

/-- At the end of the source only the unknown token is left. -/
theorem tokens_end (h : scanner.rest = []) (fuel : Nat) :
    tokens (fuel + 1) scanner = ([⟨.unknown, "", scanner.line⟩], .ok scanner) := by
  obtain ⟨position, rest, line⟩ := scanner
  cases h
  rfl

/-! ## Texts before a space -/

/-- The scanner reads a token of a kind and a text, and stops at what is behind it. -/
def Reads (scanner : Scanner) (kind : Kind) (text : String) (behind : List Char) : Prop :=
  ∃ position, scanner.token =
    .ok (⟨kind, text, scanner.line⟩, ⟨position, behind, scanner.line⟩)

/-- A visible character that opens no comment starts the token that is read. -/
theorem reads_of_tokenAt {position : Nat} (hRest : scanner.rest = c :: rest)
    (hBlank : isBlank c = false) (hDash : c = '-' → rest.head? ≠ some '-')
    (hRun : scanner.tokenAt c rest =
      .ok (⟨kind, text, scanner.line⟩, ⟨position, behind, scanner.line⟩)) :
    scanner.Reads kind text behind :=
  ⟨position, (token_of_start hRest hBlank hDash).trans hRun⟩

section

variable (hBehind : ∀ d ∈ behind.head?, d = ' ')
include hBehind

/-- A word is read whole before a space. -/
theorem reads_word {run : List Char} (hFirst : isLetter c = true ∨ c = '_')
    (hRun : run.all isWordChar = true) (hRest : scanner.rest = c :: (run ++ behind)) :
    scanner.Reads (wordKind (String.ofList (c :: run))) (String.ofList (c :: run)) behind := by
  have hNext : ∀ d ∈ behind.head?, isWordChar d = false := by
    intro d hHead
    rw [hBehind d hHead]
    decide
  obtain ⟨hBlank, hDash⟩ := no_gap_of_first hFirst
  exact reads_of_tokenAt hRest hBlank (fun h => absurd h hDash)
    (tokenAt_word hFirst hRun hNext hRest)

/-- A number is read whole before a space. -/
theorem reads_number {run : List Char} (hDigits : (c :: run).all isDigit = true)
    (hRest : scanner.rest = c :: (run ++ behind)) :
    scanner.Reads .number (String.ofList (c :: run)) behind := by
  have hNext : ∀ d ∈ behind.head?, isDigit d = false := by
    intro d hHead
    rw [hBehind d hHead]
    decide
  obtain ⟨hBlank, hDash⟩ := no_gap_of_isDigit
    (List.all_eq_true.mp hDigits c (List.mem_cons_self ..))
  exact reads_of_tokenAt hRest hBlank (fun h => absurd h hDash)
    (tokenAt_number hDigits hNext hRest)

/-- An operator is read whole before a space, if its first character is an operator itself. -/
theorem reads_operator (hOperator : text ∈ operators) (hReadable : text ∉ unreadable)
    (hRest : scanner.rest = text.toList ++ behind) : scanner.Reads .operator text behind := by
  obtain ⟨c, hStart, hText⟩ := operator_cases hOperator hReadable
  obtain ⟨hSpecial, hQuote, hSingle, hBlank⟩ := operatorStarts_apart hStart
  rcases hText with rfl | ⟨d, rfl⟩
  · -- A single character: the space makes neither a longer operator nor a comment of it.
    rw [String.toList_ofList] at hRest
    have hPair : ∀ d ∈ behind.head?, (c, d) ∉ operatorPairs := by
      intro d hHead
      rw [hBehind d hHead]
      simp [operatorPairs]
    have hDash : c = '-' → behind.head? ≠ some '-' := by
      intro _ hHead
      cases hBehind _ hHead
    have hRun := @tokenAt_special scanner c behind hSpecial hQuote
    rw [if_pos hSingle, operator_single hPair] at hRun
    exact reads_of_tokenAt hRest hBlank hDash hRun
  · rw [String.toList_ofList] at hRest
    have hDash : c = '-' → (d :: behind).head? ≠ some '-' := by
      rintro rfl
      have hPair := mem_operatorPairs hOperator
      simp [operatorPairs] at hPair
    have hRun := @tokenAt_special scanner c (d :: behind) hSpecial hQuote
    rw [if_pos hSingle, operator_pair hOperator] at hRun
    exact reads_of_tokenAt hRest hBlank hDash hRun

end

/-- A separator is read by itself. -/
theorem reads_separator (h : c ∈ separators) (hRest : scanner.rest = c :: behind) :
    scanner.Reads .separator (String.singleton c) behind := by
  obtain ⟨hSpecial, hQuote, hOperator, hBlank, hDash⟩ := separator_apart h
  have hRun := @tokenAt_special scanner c behind hSpecial hQuote
  rw [if_neg hOperator, if_pos h] at hRun
  exact reads_of_tokenAt hRest hBlank (fun h => absurd h hDash) hRun

/-- Every lexeme is read, unless it is one of the unreadable operators. -/
theorem reads_lexeme (hLexeme : Lexeme text kind) (hReadable : text ∉ unreadable)
    (hBehind : ∀ d ∈ behind.head?, d = ' ') (hRest : scanner.rest = text.toList ++ behind) :
    scanner.Reads kind text behind := by
  cases hLexeme with
  | keyword h =>
      obtain ⟨c, run, rfl, hFirst, hRun⟩ := reserved_cases (List.mem_append_left _ h)
      rw [String.toList_ofList] at hRest
      have hReads := reads_word hBehind (.inl hFirst) hRun hRest
      rwa [wordKind, if_pos h] at hReads
  | typeWord h =>
      obtain ⟨c, run, rfl, hFirst, hRun⟩ := reserved_cases (List.mem_append_right _ h)
      rw [String.toList_ofList] at hRest
      have hReads := reads_word hBehind (.inl hFirst) hRun hRest
      rwa [wordKind_of_typeWord h] at hReads
  | identifier hFirst hRun hKeyword hType =>
      rw [String.toList_ofList] at hRest
      have hReads := reads_word hBehind hFirst hRun hRest
      rwa [wordKind, if_neg hKeyword, if_neg hType] at hReads
  | number hNonempty hDigits =>
      obtain ⟨c, run, rfl⟩ := List.exists_cons_of_ne_nil hNonempty
      rw [String.toList_ofList] at hRest
      exact reads_number hBehind hDigits hRest
  | operator h => exact reads_operator hBehind h hReadable hRest
  | separator h =>
      rw [String.toList_singleton] at hRest
      exact reads_separator h hRest

/-- An unreadable operator starts with an invalid character. -/
theorem token_unreadable (h : text ∈ unreadable) (hRest : scanner.rest = text.toList ++ behind) :
    ∃ c, text = String.ofList [c, c] ∧ scanner.token = .error ⟨c, scanner⟩ := by
  obtain ⟨c, rfl, hFirst, hDigit, hQuote, hOperator, hSeparator, hBlank, hDash⟩ :=
    unreadable_cases h
  rw [String.toList_ofList] at hRest
  refine ⟨c, rfl, ?_⟩
  rw [token_of_start hRest hBlank fun h => absurd h hDash, tokenAt, if_neg (by simp [hFirst]),
    if_neg (by simp [hDigit]), if_neg hQuote, if_neg hOperator, if_neg hSeparator]

/-! ## Texts one after another -/

/-- The space in front of the next text is skipped. -/
theorem exists_tokens_behind (texts : List String) (fuel position line : Nat) :
    ∃ position',
      tokens (fuel + 1) ⟨position, texts.flatMap (fun next => ' ' :: next.toList), line⟩ =
        tokens (fuel + 1) ⟨position', (joined " " texts).toList, line⟩ := by
  cases texts with
  | nil => exact ⟨position, rfl⟩
  | cons text texts =>
      refine ⟨position + 1, ?_⟩
      rw [toList_joined_cons, List.flatMap_cons, List.cons_append, tokens_space]

/-- Readable lexemes are found in turn, and the rest is scanned after them. -/
theorem exists_tokens_append {before after : List (String × Kind)}
    (hLexemes : ∀ word ∈ before, Lexeme word.1 word.2)
    (hReadable : ∀ word ∈ before, word.1 ∉ unreadable) (fuel : Nat)
    (hRest : scanner.rest = (joined " " ((before ++ after).map Prod.fst)).toList) :
    ∃ last : Scanner, last.rest = (joined " " (after.map Prod.fst)).toList ∧
      last.line = scanner.line ∧
      tokens (before.length + (fuel + 1)) scanner =
        (before.map (fun word => ⟨word.2, word.1, scanner.line⟩) ++ (tokens (fuel + 1) last).1,
          (tokens (fuel + 1) last).2) := by
  induction before generalizing scanner with
  | nil => exact ⟨scanner, hRest, rfl, by simp⟩
  | cons word before ih =>
      obtain ⟨text, kind⟩ := word
      have hLexeme := hLexemes _ (List.mem_cons_self ..)
      rw [List.cons_append, List.map_cons, toList_joined_cons] at hRest
      have hBehind : ∀ d ∈ (((before ++ after).map Prod.fst).flatMap fun next =>
          ' ' :: next.toList).head?, d = ' ' := by
        cases (before ++ after).map Prod.fst <;> simp
      obtain ⟨position, hToken⟩ :=
        reads_lexeme hLexeme (hReadable _ (List.mem_cons_self ..)) hBehind hRest
      obtain ⟨position', hSpace⟩ := exists_tokens_behind ((before ++ after).map Prod.fst)
        (before.length + fuel) position scanner.line
      obtain ⟨last, hLast, hLine, hTokens⟩ :=
        @ih ⟨position', (joined " " ((before ++ after).map Prod.fst)).toList, scanner.line⟩
          (fun word hMem => hLexemes word (List.mem_cons_of_mem _ hMem))
          (fun word hMem => hReadable word (List.mem_cons_of_mem _ hMem)) rfl
      refine ⟨last, hLast, hLine, ?_⟩
      have hFuel : ((text, kind) :: before).length + (fuel + 1) =
          before.length + (fuel + 1) + 1 := by
        simp only [List.length_cons]
        omega
      rw [hFuel, tokens, hToken]
      dsimp only
      rw [if_neg hLexeme.kind_ne_unknown, ← Nat.add_assoc, hSpace, Nat.add_assoc, hTokens]
      rfl

end Scanner

section

variable {before after : List (String × Kind)} {text : String} {kind : Kind}

/-- The scan of a source that starts with readable lexemes. -/
theorem exists_scan_append (hLexemes : ∀ word ∈ before ++ after, Lexeme word.1 word.2)
    (hReadable : ∀ word ∈ before, word.1 ∉ unreadable) :
    ∃ fuel, ∃ last : Scanner, last.rest = (joined " " (after.map Prod.fst)).toList ∧
      last.line = 1 ∧
      scan (joined " " ((before ++ after).map Prod.fst)) =
        (before.map (fun word => ⟨word.2, word.1, 1⟩) ++ (Scanner.tokens (fuel + 1) last).1,
          (Scanner.tokens (fuel + 1) last).2) := by
  have hLength := @length_le_joined ((before ++ after).map Prod.fst) (by
    intro text hText
    obtain ⟨word, hMem, rfl⟩ := List.mem_map.mp hText
    exact (hLexemes word hMem).ne_empty)
  simp only [List.length_map, List.length_append] at hLength
  obtain ⟨fuel, hFuel⟩ := Nat.exists_eq_add_of_le (Nat.le_trans (Nat.le_add_right ..) hLength)
  refine ⟨fuel, ?_⟩
  unfold scan
  rw [hFuel, Nat.add_assoc]
  exact @Scanner.exists_tokens_append (.ofChars _) before after
    (fun word hMem => hLexemes word (List.mem_append_left _ hMem)) hReadable fuel rfl

/-- Readable lexemes are found again. -/
theorem exists_tokenize_readable (hLexemes : ∀ word ∈ before, Lexeme word.1 word.2)
    (hReadable : ∀ word ∈ before, word.1 ∉ unreadable) :
    ∃ last, tokenize (joined " " (before.map Prod.fst)) =
      .ok (before.map (fun word => ⟨word.2, word.1, 1⟩), last) := by
  obtain ⟨fuel, last, hRest, -, hScan⟩ :=
    @exists_scan_append before [] (by simpa using hLexemes) hReadable
  rw [List.append_nil, Scanner.tokens_end hRest] at hScan
  have hKinds : ∀ token ∈ before.map (fun word => (⟨word.2, word.1, 1⟩ : Token)),
      token.kind ≠ .unknown := by
    intro token hToken
    obtain ⟨word, hMem, rfl⟩ := List.mem_map.mp hToken
    exact (hLexemes word hMem).kind_ne_unknown
  refine ⟨last, ?_⟩
  unfold tokenize
  rw [hScan]
  dsimp only
  rw [List.filter_append, List.filter_eq_self.mpr (by simpa using hKinds)]
  simp

/-- The first unreadable operator is an invalid character where it stands. -/
theorem exists_tokenize_unreadable
    (hLexemes : ∀ word ∈ before ++ (text, kind) :: after, Lexeme word.1 word.2)
    (hReadable : ∀ word ∈ before, word.1 ∉ unreadable) (h : text ∈ unreadable) :
    ∃ failure, tokenize (joined " " ((before ++ (text, kind) :: after).map Prod.fst)) =
        .error failure ∧
      text = String.ofList [failure.character, failure.character] ∧
      failure.scanner.line = 1 ∧
      failure.scanner.rest = (joined " " (text :: after.map Prod.fst)).toList := by
  obtain ⟨fuel, last, hRest, hLine, hScan⟩ := exists_scan_append hLexemes hReadable
  rw [List.map_cons] at hRest
  obtain ⟨c, hText, hToken⟩ :=
    Scanner.token_unreadable h (hRest.trans (toList_joined_cons text _))
  refine ⟨⟨c, last⟩, ?_, hText, hLine, hRest⟩
  unfold tokenize
  rw [hScan, Scanner.tokens, hToken]

end

/-- Texts joined by spaces are found again exactly if no operator among them is unreadable: in
their order, each with its kind, all on the first line. Otherwise the first unreadable operator is
reported as an invalid character, and the source from there on is not scanned. -/
theorem tokenize_joined {words : List (String × Kind)}
    (hWords : ∀ word ∈ words, Lexeme word.1 word.2) :
    ((∃ last, tokenize (joined " " (words.map Prod.fst)) =
        .ok (words.map (fun word => ⟨word.2, word.1, 1⟩), last)) ↔
      ∀ word ∈ words, word.1 ∉ unreadable) ∧
    ∀ before text kind after, words = before ++ (text, kind) :: after →
      (∀ word ∈ before, word.1 ∉ unreadable) → text ∈ unreadable →
      ∃ failure, tokenize (joined " " (words.map Prod.fst)) = .error failure ∧
        text = String.ofList [failure.character, failure.character] ∧
        failure.scanner.line = 1 ∧
        failure.scanner.rest = (joined " " (text :: after.map Prod.fst)).toList := by
  refine ⟨⟨?_, fun hReadable => exists_tokenize_readable hWords hReadable⟩, ?_⟩
  · rintro ⟨last, hTokens⟩ word hMem hUnreadable
    -- The first unreadable operator would have failed.
    have hFound : (words.find? fun word => decide (word.1 ∈ unreadable)).isSome = true :=
      List.find?_isSome.mpr ⟨word, hMem, by simpa using hUnreadable⟩
    obtain ⟨⟨text, kind⟩, hFirst⟩ := Option.isSome_iff_exists.mp hFound
    obtain ⟨hText, before, after, rfl, hBefore⟩ := List.find?_eq_some_iff_append.mp hFirst
    obtain ⟨failure, hFailure, -⟩ := exists_tokenize_unreadable hWords
      (fun word hWord => by simpa using hBefore word hWord) (by simpa using hText)
    rw [hTokens] at hFailure
    cases hFailure
  · rintro before text kind after rfl hReadable hUnreadable
    exact exists_tokenize_unreadable hWords hReadable hUnreadable

/-- A comparison, a conjunction, and a word for a type with a separator behind it. -/
def conjunctionWords : List (String × Kind) :=
  [("while", .keyword), ("x_1", .identifier), ("<=", .operator), ("7", .number),
    ("&&", .operator), ("array", .typeName), (";", .separator)]

/-- The conjunction cannot be read although it is an operator, and the words in front of it can. -/
theorem tokenize_joined_conjunctionWords :
    (∀ word ∈ conjunctionWords, Lexeme word.1 word.2) ∧
      (∃ failure, tokenize "while x_1 <= 7 && array ;" = .error failure ∧
        "&&" = String.ofList [failure.character, failure.character] ∧
        failure.scanner.line = 1 ∧ failure.scanner.rest = "&& array ;".toList) ∧
      ∃ last, tokenize "while x_1 <= 7" =
        .ok ([⟨.keyword, "while", 1⟩, ⟨.identifier, "x_1", 1⟩, ⟨.operator, "<=", 1⟩,
          ⟨.number, "7", 1⟩], last) := by
  have hWords : ∀ word ∈ conjunctionWords, Lexeme word.1 word.2 := by
    simp only [conjunctionWords, List.forall_mem_cons]
    refine ⟨.keyword (by decide), ?_, .operator (by decide), ?_, .operator (by decide),
      .typeWord (by decide), @Lexeme.separator ';' (by decide), by simp⟩
    · exact @Lexeme.identifier 'x' ['_', '1'] (.inl (by decide)) (by decide +kernel) (by decide)
        (by decide)
    · exact @Lexeme.number ['7'] (by simp) (by decide +kernel)
  refine ⟨hWords, ?_, ?_⟩
  · exact (tokenize_joined hWords).2 (conjunctionWords.take 4) "&&" .operator _ rfl
      (by decide) (by decide)
  · have hTaken : ∀ word ∈ conjunctionWords.take 4, Lexeme word.1 word.2 :=
      fun word hMem => hWords word (List.mem_of_mem_take hMem)
    exact (tokenize_joined hTaken).1.mpr (by decide)

end Mus.Line
