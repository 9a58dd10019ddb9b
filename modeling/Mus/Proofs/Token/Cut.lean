import Mathlib.Data.List.Basic
import Mus.Proofs.Token.Layout
import Mus.Proofs.Token.Scanned

/-! Scanning loses nothing and stops nowhere too early. A source is cut into
gaps and lexemes: the gaps are blanks and comments, every lexeme is as long as
it can be, and its text alone settles the kind and the literal of its token. -/
namespace Mus

open Mus.Text

/-! ## Gaps -/

/-- A text that stands between tokens, before the given rest of the source. A
comment runs up to a line end or to the end of the source. -/
inductive GapBefore (rest : List Char) : List Char → Prop where
  | nil : GapBefore rest []
  | blank {c : Char} {gap : List Char} (hBlank : isGap c = true) (hGap : GapBefore rest gap) :
      GapBefore rest (c :: gap)
  | comment {mark : Char} {body gap : List Char} (hMark : mark = '-' ∨ mark = '/')
      (hBody : '\n' ∉ body) (hEnd : ∀ c ∈ (gap ++ rest).head?, c = '\n')
      (hGap : GapBefore rest gap) : GapBefore rest (mark :: mark :: (body ++ gap))

/-- Two gaps in a row are one. -/
theorem GapBefore.append {rest first second : List Char} (hFirst : GapBefore (second ++ rest) first)
    (hSecond : GapBefore rest second) : GapBefore rest (first ++ second) := by
  induction hFirst with
  | nil => exact hSecond
  | blank hBlank _ ih => exact .blank hBlank ih
  | @comment mark body gap hMark hBody hEnd _ ih =>
      rw [← List.append_assoc] at hEnd
      simpa only [List.cons_append, List.append_assoc] using GapBefore.comment hMark hBody hEnd ih

/-! ## Lexemes -/

/-- The signs that a second character turns into another sign or into the start
of a comment, with the characters that do. -/
def openSigns : List (Char × List Char) :=
  [('=', ['=', '>']), ('!', ['=']), ('>', ['=']), ('<', ['=']), ('-', ['-']), ('/', ['/'])]

/-- The characters that are lexemes whatever follows them. -/
def symbols : List Char := ['(', ')', '\x7b', '\x7d', '[', ']', ',', '.', '+', '*', '%', ';']

/-- A lexeme that is not cut short: with what follows it in the source, no
longer lexeme of its sort is possible. -/
inductive Longest (rest : List Char) : List Char → Prop where
  | symbol {c : Char} (hSymbol : c ∈ symbols) : Longest rest [c]
  | sign {c : Char} {seconds : List Char} (hSign : (c, seconds) ∈ openSigns)
      (hNext : ∀ d ∈ rest.head?, d ∉ seconds) : Longest rest [c]
  | pair {kind : TokenKind} {first second : Char} (hPair : (kind, first, second) ∈ Token.pairs) :
      Longest rest [first, second]
  | quotation {body : List Char} (hBody : '\x22' ∉ body) :
      Longest rest ('\x22' :: (body ++ ['\x22']))
  | number {text : List Char} (hDigits : text.all isDigit = true)
      (hNext : ∀ d ∈ rest.head?, isDigit d = false)
      (hPoint : ∀ d more, rest = '.' :: d :: more → isDigit d = false) : Longest rest text
  | word {c : Char} {run : List Char} (hFirst : isLetter c = true ∨ c = '_')
      (hRun : run.all isWordChar = true) (hNext : ∀ d ∈ rest.head?, isWordChar d = false) :
      Longest rest (c :: run)

def signs : List (List Char × TokenKind) := [
  (['('], .leftParen), ([')'], .rightParen), (['\x7b'], .leftBrace), (['\x7d'], .rightBrace),
  (['['], .leftBracket), ([']'], .rightBracket), ([','], .comma), (['.'], .dot), (['+'], .plus),
  (['*'], .multiply), (['%'], .modulo), ([';'], .semicolon), (['='], .assign), (['!'], .not),
  (['>'], .greater), (['<'], .less), (['-'], .minus), (['/'], .divide), (['=', '='], .equals),
  (['=', '>'], .arrow), (['!', '='], .notEquals), (['>', '='], .greaterEqual),
  (['<', '='], .lessEqual)]

/-- The words that are no names, with their kinds and literals. -/
def words : List (String × TokenKind × Value) := [
  ("class", .classWord, .nothing), ("fun", .funWord, .nothing), ("var", .varWord, .nothing),
  ("if", .ifWord, .nothing), ("else", .elseWord, .nothing), ("elif", .elifWord, .nothing),
  ("while", .whileWord, .nothing), ("for", .forWord, .nothing), ("in", .inWord, .nothing),
  ("return", .returnWord, .nothing), ("this", .thisWord, .nothing),
  ("super", .superWord, .nothing), ("extends", .extendsWord, .nothing),
  ("new", .newWord, .nothing), ("true", .boolean, .bool true), ("false", .boolean, .bool false)]

/-- The number that a text of digits writes. -/
def numberLiteral (text : List Char) : Value :=
  match Integer.read text with
  | .ok n => .int n
  | .error _ => .nothing

/-- The kind and the literal that belong to the text of a token: a quotation
stands for what is between its quotes, digits for their number, and a word for
itself unless it is a keyword. -/
def classify (text : List Char) : TokenKind × Value :=
  if text.head? = some '\x22' then (.string, .str (String.ofList text.tail.dropLast))
  else
    match signs.lookup text with
    | some kind => (kind, .nothing)
    | none =>
        if text.all isDigit then (.integer, numberLiteral text)
        else (words.lookup (String.ofList text)).getD (.identifier, .nothing)

/-- The scanner takes these characters for tokens, and no others. -/
theorem mem_symbols_iff {c : Char} : c ∈ symbols ↔ ∃ kind, Scanner.symbol? c = some kind := by
  constructor
  · intro h
    have hAll : symbols.all (fun c => (Scanner.symbol? c).isSome) = true := by decide
    exact Option.isSome_iff_exists.mp (List.all_eq_true.mp hAll c h)
  · rintro ⟨kind, h⟩
    unfold Scanner.symbol? at h
    split at h <;> cases h <;> decide

theorem classify_symbol {c : Char} {kind : TokenKind} (h : Scanner.symbol? c = some kind) :
    classify [c] = (kind, .nothing) := by
  unfold Scanner.symbol? at h
  split at h <;> cases h <;> rfl

theorem classify_pair {kind : TokenKind} {first second : Char}
    (h : (kind, first, second) ∈ Token.pairs) : classify [first, second] = (kind, .nothing) := by
  simp only [Token.pairs, List.mem_cons, Prod.mk.injEq, List.not_mem_nil, or_false] at h
  rcases h with ⟨rfl, rfl, rfl⟩ | ⟨rfl, rfl, rfl⟩ | ⟨rfl, rfl, rfl⟩ | ⟨rfl, rfl, rfl⟩ |
    ⟨rfl, rfl, rfl⟩ <;> rfl

theorem classify_quotation (body : List Char) :
    classify ('\x22' :: (body ++ ['\x22'])) = (.string, .str (String.ofList body)) := by
  simp [classify]

/-- What starts with none of the special characters is no sign. -/
theorem lookup_signs_of_not_special {c : Char} (h : c ∉ Token.specials) (run : List Char) :
    signs.lookup (c :: run) = none := by
  have hSpecial : ∀ entry ∈ signs, ∀ first ∈ entry.1.head?, first ∈ Token.specials := by
    simp [signs, Token.specials]
  refine List.lookup_eq_none_iff.mpr fun entry hEntry => ?_
  by_contra hEq
  have hText : c :: run = entry.1 := by simpa using hEq
  exact h (hSpecial entry hEntry c (by rw [← hText]; rfl))

/-- A text of digits is a number, unless a special character comes first. -/
theorem classify_number {c : Char} {run : List Char} (hFirst : c ∉ Token.specials)
    (hDigits : (c :: run).all isDigit = true) :
    classify (c :: run) = (.integer, numberLiteral (c :: run)) := by
  have hQuote : c ≠ '\x22' := fun h => hFirst (h ▸ by simp [Token.specials])
  simp only [classify, List.head?_cons, Option.some.injEq, hQuote, if_false,
    lookup_signs_of_not_special hFirst, hDigits, if_true]

/-- What is found in a table whose entries are changed, but not their keys. -/
theorem lookup_map {α β γ : Type} [BEq α] [LawfulBEq α] (change : α → β → γ)
    (table : List (α × β)) (key : α) :
    (table.map fun entry => (entry.1, change entry.1 entry.2)).lookup key =
      (table.lookup key).map (change key) := by
  induction table with
  | nil => rfl
  | cons entry table ih =>
      rw [List.map_cons, List.lookup_cons, List.lookup_cons, ih]
      cases hKey : key == entry.1 with
      | false => rfl
      | true => rw [eq_of_beq hKey]; rfl

/-- The scanner knows the same words, and it tells `true` from `false` by the text. -/
theorem lookup_words (word : String) :
    (words.lookup word).getD (.identifier, .nothing) =
      (TokenKind.ofWord word,
        if TokenKind.ofWord word = .boolean then .bool (word == "true") else .nothing) := by
  have hWords : words = TokenKind.keywords.map fun entry =>
      (entry.1, entry.2, if entry.2 = .boolean then .bool (entry.1 == "true") else .nothing) := rfl
  rw [hWords, lookup_map fun (word : String) (kind : TokenKind) =>
    (kind, if kind = .boolean then Value.bool (word == "true") else .nothing)]
  unfold TokenKind.ofWord
  cases TokenKind.keywords.lookup word <;> rfl

/-- A text that starts with neither a special character nor a digit is a word. -/
theorem classify_word {c : Char} {run : List Char} (hFirst : c ∉ Token.specials)
    (hDigit : isDigit c = false) :
    classify (c :: run) =
      (TokenKind.ofWord (String.ofList (c :: run)),
        if TokenKind.ofWord (String.ofList (c :: run)) = .boolean then
          .bool (String.ofList (c :: run) == "true")
        else .nothing) := by
  have hQuote : c ≠ '\x22' := fun h => hFirst (h ▸ by simp [Token.specials])
  have hAll : (c :: run).all isDigit = false := by simp [hDigit]
  simp only [classify, List.head?_cons, Option.some.injEq, hQuote, if_false,
    lookup_signs_of_not_special hFirst, hAll, Bool.false_eq_true, lookup_words]

/-! ## Numbers that are read -/

namespace Integer

/-- The characters that the plain notation of a number is made of. -/
def isNotation (c : Char) : Bool :=
  c.isDigit || c == '_' || isPadding c || c == '-' || c == '+'

theorem isNotation_of_readUnsigned {cs : List Char} {n : Nat} (h : readUnsigned cs = .ok n) :
    ∀ c ∈ cs, isNotation c = true := by
  simp only [readUnsigned] at h
  split_ifs at h with hRun hLength hRest
  intro c hMem
  rw [← List.prefix_iff_eq_append.mp
    (List.takeWhile_prefix (l := cs) fun c => c.isDigit || c == '_'), List.mem_append] at hMem
  rcases hMem with hMem | hMem
  · have hDigit := List.mem_takeWhile_imp hMem
    simp_all [isNotation]
  · have hPadding := List.all_eq_true.mp hRest c hMem
    simp [isNotation, hPadding]

/-- What is read as a number is in plain notation throughout. -/
theorem isNotation_of_read {cs : List Char} {n : Int} (h : read cs = .ok n) :
    ∀ c ∈ plain cs, isNotation c = true := by
  obtain ⟨sign, rest, m, hText, hSign, hUnsigned, -⟩ := read_cases h
  intro c hMem
  rw [← List.takeWhile_append_dropWhile (p := isPadding) (l := plain cs), hText, List.mem_append,
    List.mem_append] at hMem
  rcases hMem with hMem | hMem | hMem
  · have hPadding := List.mem_takeWhile_imp hMem
    simp [isNotation, hPadding]
  · rcases hSign with rfl | rfl | rfl <;> simp_all [isNotation]
  · exact isNotation_of_readUnsigned hUnsigned c hMem

/-- A point stays where it is, unless the text ends before it. -/
theorem mem_plain_of_point {cs : List Char} (h : '.' ∈ cs) : '.' ∈ plain cs ∨ '?' ∈ plain cs := by
  induction cs with
  | nil => cases h
  | cons c cs ih =>
      by_cases hPoint : c = '.'
      · subst hPoint
        exact Or.inl (by simp [plain])
      · have hTail := ih ((List.mem_cons.mp h).resolve_left (Ne.symm hPoint))
        have hCons : ∀ d : Char, '.' ∈ d :: plain cs ∨ '?' ∈ d :: plain cs := fun d =>
          hTail.imp (List.mem_cons_of_mem d) (List.mem_cons_of_mem d)
        unfold plain
        split_ifs
        · exact hCons c
        · exact hCons ' '
        · split
          · exact hCons _
          · exact Or.inr (List.mem_singleton.mpr rfl)

/-- A number with a point is not whole. -/
theorem point_not_mem_of_read {cs : List Char} {n : Int} (h : read cs = .ok n) : '.' ∉ cs := by
  intro hMem
  rcases mem_plain_of_point hMem with hPlain | hPlain
  · exact absurd (isNotation_of_read h _ hPlain) (by decide)
  · exact absurd (isNotation_of_read h _ hPlain) (by decide)

end Integer

/-! ## One step of the scanner -/

namespace Scanner

/-- What one step of the scanner does: it reads a gap, or it reads a lexeme and
adds the token of it. The line that it stands in counts the line ends read. -/
inductive Steps (s t : Scanner) : Prop where
  | gap (text : List Char) (hRest : s.rest = text ++ t.rest)
      (hLine : t.line = s.line + text.count '\n') (hTokens : t.tokens = s.tokens)
      (hGap : GapBefore t.rest text)
  | token (text : List Char) {token : Token} (hRest : s.rest = text ++ t.rest)
      (hLine : t.line = s.line + text.count '\n') (hTokens : t.tokens = s.tokens.push token)
      (hText : token.lexeme = String.ofList text) (hNonempty : text ≠ [])
      (hLongest : Longest t.rest text) (hClass : (token.kind, token.literal) = classify text)
      (hStands : token.line = t.line)

variable {s t : Scanner} {c : Char} {rest : List Char}

/-- A lexeme without line ends that is not cut short is one step. -/
theorem steps_emit {text : List Char} {kind : TokenKind} {literal : Value}
    (hRest : s.rest = text ++ rest) (hLine : '\n' ∉ text) (hNonempty : text ≠ [])
    (hLongest : Longest rest text) (hClass : classify text = (kind, literal)) :
    Steps s ((s.past text rest).emit kind literal) :=
  .token text hRest (by rw [List.count_eq_zero.mpr hLine]; rfl) rfl rfl hNonempty hLongest
    hClass.symm rfl

/-- The scanner accepts a character exactly if it is next. -/
theorem accept_past (text : List Char) (second : Char) :
    (s.past text rest).accept second =
      if rest.head? = some second then some (s.past (text ++ [second]) rest.tail) else none := by
  cases rest with
  | nil => rfl
  | cons d rest =>
      simp only [accept, past, List.head?_cons, Option.some.injEq, List.tail_cons,
        List.length_append, List.length_singleton, Nat.add_assoc]
      split_ifs with h
      · rw [h]
      · rfl

/-- A second character is read exactly if it is next. -/
theorem pair_past (second : Char) (kind : TokenKind) (otherwise : Scanner) :
    (s.past [c] rest).pair second kind otherwise =
      if rest.head? = some second then (s.past [c, second] rest.tail).emit kind .nothing
      else otherwise := by
  unfold pair
  rw [accept_past]
  split_ifs <;> rfl

/-- Two characters that are a sign together are one step. -/
theorem steps_pair {kind : TokenKind} {first second : Char}
    (hPair : (kind, first, second) ∈ Token.pairs) (hRest : s.rest = first :: rest)
    (hSecond : rest.head? = some second) :
    Steps s ((s.past [first, second] rest.tail).emit kind .nothing) := by
  have hLine : ∀ entry ∈ Token.pairs, '\n' ∉ [entry.2.1, entry.2.2] := by decide
  refine steps_emit ?_ (hLine _ hPair) (List.cons_ne_nil _ _) (.pair hPair) (classify_pair hPair)
  rw [hRest, List.eq_cons_of_mem_head? hSecond]
  rfl

/-- A sign that no second character makes longer is one step. -/
theorem steps_sign {kind : TokenKind} (seconds : List Char) (hSign : (c, seconds) ∈ openSigns)
    (hRest : s.rest = c :: rest) (hNext : ∀ d ∈ rest.head?, d ∉ seconds)
    (hClass : classify [c] = (kind, .nothing)) :
    Steps s ((s.past [c] rest).emit kind .nothing) := by
  have hLine : ∀ entry ∈ openSigns, '\n' ∉ [entry.1] := by decide
  exact steps_emit hRest (hLine _ hSign) (List.cons_ne_nil _ _) (.sign hSign hNext) hClass

/-- A sign that another one makes a sign of two characters. -/
theorem steps_pairOr {second : Char} {pairKind kind : TokenKind}
    (hSign : (c, [second]) ∈ openSigns) (hPair : (pairKind, c, second) ∈ Token.pairs)
    (hClass : classify [c] = (kind, .nothing)) (hRest : s.rest = c :: rest) :
    Steps s ((s.past [c] rest).pair second pairKind ((s.past [c] rest).emit kind .nothing)) := by
  rw [pair_past]
  split_ifs with hSecond
  · exact steps_pair hPair hRest hSecond
  · refine steps_sign _ hSign hRest (fun d hNext hMem => hSecond ?_) hClass
    rw [← List.mem_singleton.mp hMem]
    exact hNext

/-- Behind an equals sign, another one and the tip of an arrow are tried in turn. -/
theorem steps_equals (hRest : s.rest = '=' :: rest) :
    Steps s ((s.past ['='] rest).pair '=' .equals
      ((s.past ['='] rest).pair '>' .arrow ((s.past ['='] rest).emit .assign .nothing))) := by
  rw [pair_past, pair_past]
  split_ifs with hEquals hArrow
  · exact steps_pair (by simp [Token.pairs]) hRest hEquals
  · exact steps_pair (by simp [Token.pairs]) hRest hArrow
  · refine steps_sign ['=', '>'] (by simp [openSigns]) hRest ?_ rfl
    intro d hNext hMem
    simp only [List.mem_cons, List.not_mem_nil, or_false] at hMem
    rcases hMem with rfl | rfl
    · exact hEquals hNext
    · exact hArrow hNext

/-- What is left after a run of characters does not go on with it. -/
theorem head?_dropWhile_eq_false (p : Char → Bool) (cs : List Char) :
    ∀ d ∈ (cs.dropWhile p).head?, p d = false := by
  intro d hNext
  have hHead := List.head?_dropWhile_not p cs
  rw [hNext] at hHead
  exact hHead

/-- A comment, or a sign that a second one would make a comment. -/
theorem steps_commentOr {kind : TokenKind} (hMark : c = '-' ∨ c = '/')
    (hSign : (c, [c]) ∈ openSigns) (hClass : classify [c] = (kind, .nothing))
    (hRest : s.rest = c :: rest) : Steps s ((s.past [c] rest).commentOr c kind) := by
  unfold commentOr
  rw [accept_past]
  split_ifs with hSecond
  · change Steps s ((s.past [c, c] rest.tail).skip (· != '\n'))
    rw [skip_past_eq]
    have hBody : '\n' ∉ rest.tail.takeWhile (· != '\n') := fun hMem => by
      simpa using List.mem_takeWhile_imp hMem
    have hLine : '\n' ∉ [c, c] ++ rest.tail.takeWhile (· != '\n') := by
      rcases hMark with rfl | rfl <;> simpa using hBody
    refine .gap ([c, c] ++ rest.tail.takeWhile (· != '\n')) ?_ ?_ rfl ?_
    · change s.rest = [c, c] ++ rest.tail.takeWhile (· != '\n') ++ rest.tail.dropWhile (· != '\n')
      rw [List.append_assoc, List.takeWhile_append_dropWhile, hRest,
        List.eq_cons_of_mem_head? hSecond]
      rfl
    · rw [List.count_eq_zero.mpr hLine]
      rfl
    · have hEnd : ∀ d ∈ ([] ++ rest.tail.dropWhile (· != '\n')).head?, d = '\n' := by
        intro d hNext
        simpa using head?_dropWhile_eq_false (· != '\n') rest.tail d hNext
      simpa using GapBefore.comment hMark hBody hEnd .nil
  · refine steps_sign _ hSign hRest (fun d hNext hMem => hSecond ?_) hClass
    rw [← List.mem_singleton.mp hMem]
    exact hNext

/-- What is accepted belongs to the lexeme and is no longer ahead. -/
theorem accept_eq_some {second : Char} (h : s.accept second = some t) :
    s.rest = second :: t.rest ∧ t.lexeme = s.lexeme ++ [second] ∧ t.line = s.line ∧
      t.tokens = s.tokens := by
  unfold accept at h
  split at h
  · cases h
  · next d rest hRest =>
    split_ifs at h with hSecond
    cases h
    exact ⟨hSecond ▸ hRest, by rw [hSecond], rfl, rfl⟩

/-- A quotation is read up to its closing quote. Line ends in it are counted. -/
theorem steps_string (hRest : s.rest = '\x22' :: rest)
    (h : (s.past ['\x22'] rest).string = .ok t) : Steps s t := by
  unfold string at h
  dsimp only at h
  split at h
  · cases h
  · next closed hAccept =>
    cases h
    obtain ⟨hEnd, hText, hLine, hTokens⟩ := accept_eq_some hAccept
    have hLexeme : closed.lexeme = '\x22' :: (rest.takeWhile (· != '\x22') ++ ['\x22']) := hText
    have hLines : closed.line = s.line + (rest.takeWhile (· != '\x22')).count '\n' := hLine
    have hBody : '\x22' ∉ rest.takeWhile (· != '\x22') := fun hMem =>
      absurd (List.mem_takeWhile_imp hMem) (by decide)
    have hSplit : rest = rest.takeWhile (· != '\x22') ++ '\x22' :: closed.rest := by
      conv_lhs => rw [← List.takeWhile_append_dropWhile (p := (· != '\x22')) (l := rest)]
      exact congrArg _ hEnd
    generalize rest.takeWhile (· != '\x22') = body at hBody hSplit hLexeme hLines
    refine .token ('\x22' :: (body ++ ['\x22'])) ?_ ?_ (congrArg (Array.push · _) hTokens) ?_
      (List.cons_ne_nil _ _) (.quotation hBody) ?_ rfl
    · rw [hRest, hSplit]
      simp
    · change closed.line = _
      simpa using hLines
    · rw [← hLexeme]
    · rw [classify_quotation, hLexeme]
      simp

/-- A number is read up to its last digit, or it goes on behind a point. -/
theorem skipNumber_past (s : Scanner) (c : Char) (rest : List Char) :
    '.' ∈ (s.past [c] rest).skipNumber.lexeme ∨
      (∀ d more, rest.dropWhile isDigit = '.' :: d :: more → isDigit d = false) ∧
        (s.past [c] rest).skipNumber =
          s.past (c :: rest.takeWhile isDigit) (rest.dropWhile isDigit) := by
  unfold skipNumber
  dsimp only
  rw [skip_past_eq, past_rest, List.singleton_append]
  split
  · next d more hPoint =>
    rw [hPoint]
    by_cases hDigit : isDigit d = true
    · left
      rw [if_pos hDigit, accept_past, List.head?_cons, if_pos rfl]
      dsimp only
      rw [skip_past_eq]
      simp [past]
    · right
      rw [if_neg hDigit]
      refine ⟨fun e rest' hEq => ?_, rfl⟩
      cases hEq
      simpa using hDigit
  · next hPoint => exact Or.inr ⟨fun d more hEq => absurd hEq (hPoint d more), rfl⟩

theorem newline_not_mem_of_all {p : Char → Bool} (hNewline : p '\n' = false) {text : List Char}
    (h : text.all p = true) : '\n' ∉ text := by
  intro hMem
  rw [List.all_eq_true.mp h _ hMem] at hNewline
  cases hNewline

/-- A number is read up to its last digit. What ends it belongs to the rest. -/
theorem steps_number (hSpecial : c ∉ Token.specials) (hDigit : isDigit c = true)
    (hRest : s.rest = c :: rest) (h : (s.past [c] rest).number = .ok t) : Steps s t := by
  unfold number at h
  dsimp only at h
  split at h
  · next n hRead =>
    cases h
    rcases skipNumber_past s c rest with hPoint | ⟨hPoint, hSkip⟩
    · exact absurd hPoint (Integer.point_not_mem_of_read hRead)
    · rw [hSkip] at hRead ⊢
      have hDigits : (c :: rest.takeWhile isDigit).all isDigit = true := by
        rw [List.all_cons, hDigit, List.all_takeWhile, Bool.and_self]
      refine steps_emit ?_ (newline_not_mem_of_all (by decide) hDigits) (List.cons_ne_nil _ _)
        (.number hDigits (head?_dropWhile_eq_false isDigit rest) hPoint) ?_
      · rw [hRest, List.cons_append, List.takeWhile_append_dropWhile]
      · have hNumber : numberLiteral (c :: rest.takeWhile isDigit) = .int n := by
          unfold numberLiteral
          rw [show Integer.read (c :: rest.takeWhile isDigit) = .ok n from hRead]
        rw [classify_number hSpecial hDigits, hNumber]
  · cases h
  · cases h

/-- A word is read up to the last character that can continue it. -/
theorem steps_identifier (hSpecial : c ∉ Token.specials) (hDigit : isDigit c = false)
    (hFirst : isLetter c = true ∨ c = '_') (hRest : s.rest = c :: rest) :
    Steps s (s.past [c] rest).identifier := by
  unfold identifier
  dsimp only
  rw [skip_past_eq, List.singleton_append]
  have hRun : (rest.takeWhile isWordChar).all isWordChar = true := List.all_takeWhile
  have hLine : '\n' ∉ c :: rest.takeWhile isWordChar := by
    refine List.not_mem_cons_of_ne_of_not_mem (fun hEq => hSpecial (hEq ▸ ?_))
      (newline_not_mem_of_all (by decide) hRun)
    simp [Token.specials]
  refine steps_emit ?_ hLine (List.cons_ne_nil _ _)
    (.word hFirst hRun (head?_dropWhile_eq_false isWordChar rest)) (classify_word hSpecial hDigit)
  rw [hRest, List.cons_append, List.takeWhile_append_dropWhile]

theorem steps_symbol {kind : TokenKind} (hSymbol : symbol? c = some kind)
    (hRest : s.rest = c :: rest) : Steps s ((s.past [c] rest).emit kind .nothing) := by
  refine steps_emit hRest ?_ (List.cons_ne_nil _ _) (.symbol (mem_symbols_iff.mpr ⟨kind, hSymbol⟩))
    (classify_symbol hSymbol)
  rw [List.mem_singleton]
  rintro rfl
  cases hSymbol

theorem steps_blank (hBlank : isGap c = true) (hNewline : c ≠ '\n') (hRest : s.rest = c :: rest) :
    Steps s (s.past [c] rest) := by
  refine .gap [c] hRest ?_ rfl (.blank hBlank .nil)
  rw [List.count_eq_zero.mpr (by simpa using hNewline.symm)]
  rfl

/-- The special characters that are no tokens by themselves. -/
theorem sign_of_special (hSpecial : c ∈ Token.specials) (hSymbol : symbol? c = none) :
    c ∈ ['=', '!', '>', '<', '-', '/', ' ', '\r', '\t', '\n', '\x22'] := by
  have hAll : Token.specials.all (fun c => (symbol? c).isSome ||
      ['=', '!', '>', '<', '-', '/', ' ', '\r', '\t', '\n', '\x22'].contains c) = true := by
    decide
  simpa [hSymbol] using List.all_eq_true.mp hAll c hSpecial

/-- One case for each character that starts no name and no number. -/
theorem steps_special (hSpecial : c ∈ Token.specials) (hRest : s.rest = c :: rest)
    (h : (s.past [c] rest).scanAfter c = .ok t) : Steps s t := by
  cases hSymbol : symbol? c with
  | some kind =>
      unfold scanAfter at h
      rw [hSymbol] at h
      cases h
      exact steps_symbol hSymbol hRest
  | none =>
      have hSign := sign_of_special hSpecial hSymbol
      simp only [List.mem_cons, List.not_mem_nil, or_false] at hSign
      rcases hSign with rfl | rfl | rfl | rfl | rfl | rfl | rfl | rfl | rfl | rfl | rfl
      · cases h
        exact steps_equals hRest
      · cases h
        exact steps_pairOr (by simp [openSigns]) (by simp [Token.pairs]) rfl hRest
      · cases h
        exact steps_pairOr (by simp [openSigns]) (by simp [Token.pairs]) rfl hRest
      · cases h
        exact steps_pairOr (by simp [openSigns]) (by simp [Token.pairs]) rfl hRest
      · cases h
        exact steps_commentOr (Or.inl rfl) (by simp [openSigns]) rfl hRest
      · cases h
        exact steps_commentOr (Or.inr rfl) (by simp [openSigns]) rfl hRest
      · cases h
        exact steps_blank rfl (by decide) hRest
      · cases h
        exact steps_blank rfl (by decide) hRest
      · cases h
        exact steps_blank rfl (by decide) hRest
      · cases h
        exact .gap ['\n'] hRest rfl rfl (.blank rfl .nil)
      · exact steps_string hRest h

/-- Every step of the scanner reads a gap or a lexeme. -/
theorem steps_scanToken (hLexeme : s.lexeme = []) (h : s.scanToken = .ok t) : Steps s t := by
  cases hRest : s.rest with
  | nil =>
      simp only [scanToken, advance, hRest] at h
      cases h
  | cons c rest =>
      rw [scanToken_cons hLexeme hRest] at h
      by_cases hSpecial : c ∈ Token.specials
      · exact steps_special hSpecial hRest h
      · rw [Token.scanAfter_of_not_special hSpecial] at h
        split_ifs at h with hDigit hFirst
        · exact steps_number hSpecial hDigit hRest h
        · cases h
          exact steps_identifier hSpecial (by simpa using hDigit) hFirst hRest

end Scanner

/-! ## The cut of a source -/

/-- A token with the gap in front of it. -/
structure Segment where
  gap : List Char
  token : Token

namespace Segment

def lexeme (segment : Segment) : List Char := segment.token.lexeme.toList

def text (segment : Segment) : List Char := segment.gap ++ segment.lexeme

/-- A segment between what stands before it in the source and what stands behind. -/
structure Fits (before : List Char) (segment : Segment) (behind : List Char) : Prop where
  gap : GapBefore (segment.lexeme ++ behind) segment.gap
  nonempty : segment.lexeme ≠ []
  longest : Longest behind segment.lexeme
  classified : (segment.token.kind, segment.token.literal) = classify segment.lexeme
  line : segment.token.line = ((1 + (before ++ segment.text).count '\n' : Nat) : Int)

end Segment

/-- Segments that fit, one after another, and a last gap up to the end. -/
def Cut (before : List Char) : List Segment → List Char → Prop
  | [], last => GapBefore [] last
  | segment :: segments, last =>
      segment.Fits before (segments.flatMap Segment.text ++ last) ∧
        Cut (before ++ segment.text) segments last

namespace Cut

variable {before last : List Char} {segments : List Segment}

/-- Behind the last token of a source there is only a gap. -/
theorem last_gap (h : Cut before segments last) : GapBefore [] last := by
  induction segments generalizing before with
  | nil => exact h
  | cons segment segments ih => exact ih h.2

/-- Each segment of a cut source fits between what is before and behind it. -/
theorem fits (h : Cut before segments last) {front back : List Segment} {segment : Segment}
    (hSegments : segments = front ++ segment :: back) :
    segment.Fits (before ++ front.flatMap Segment.text) (back.flatMap Segment.text ++ last) := by
  induction front generalizing before segments with
  | nil =>
      subst hSegments
      simpa using h.1
  | cons first front ih =>
      subst hSegments
      simpa using ih h.2 rfl

end Cut

/-- What a scanner has before it is cut into segments. What it has read since the
last token is the gap of the next one. -/
theorem Scanner.scanTokens_cut {s t : Scanner} (before : List Char) {gap : List Char}
    (hGap : GapBefore s.rest gap) (hLine : s.line = 1 + (before ++ gap).count '\n')
    (h : s.scanTokens = .ok t) :
    ∃ segments last mark,
      t.tokens.toList = s.tokens.toList ++ (segments.map Segment.token ++ [mark]) ∧
      mark.kind = .eof ∧ gap ++ s.rest = segments.flatMap Segment.text ++ last ∧
      Cut before segments last := by
  fun_induction scanTokens s generalizing before gap with
  | case1 s hEnd =>
      cases h
      have hRest : s.rest = [] := List.isEmpty_iff.mp hEnd
      rw [hRest] at hGap ⊢
      exact ⟨[], gap, ⟨.eof, "", .nothing, s.line, s.column⟩, by simp, rfl, by simp, hGap⟩
  | case2 s hEnd failure hStep => cases h
  | case3 s hEnd next hStep ih =>
      cases Scanner.steps_scanToken (s := s.begin) rfl hStep with
      | gap text hRest hLines hTokens hMore =>
          have hSource : s.rest = text ++ next.rest := hRest
          rw [hSource] at hGap ⊢
          obtain ⟨segments, last, mark, hFound, hMark, hText, hCut⟩ :=
            ih before (hGap.append hMore) (by
              rw [hLines, show s.begin.line = s.line from rfl, hLine]
              simp only [List.count_append]
              omega) h
          rw [hTokens] at hFound
          exact ⟨segments, last, mark, hFound, hMark, by rw [← hText, List.append_assoc], hCut⟩
      | @token text token hRest hLines hTokens hLexeme hNonempty hLongest hClass hStands =>
          have hSource : s.rest = text ++ next.rest := hRest
          have hAt : next.line = 1 + (before ++ (gap ++ text)).count '\n' := by
            rw [hLines, show s.begin.line = s.line from rfl, hLine]
            simp only [List.count_append]
            omega
          obtain ⟨segments, last, mark, hFound, hMark, hText, hCut⟩ :=
            ih (before ++ (gap ++ text)) .nil (by simpa using hAt) h
          have hSegment : Segment.lexeme ⟨gap, token⟩ = text := by
            rw [Segment.lexeme, hLexeme, String.toList_ofList]
          have hBehind : segments.flatMap Segment.text ++ last = next.rest := hText.symm
          refine ⟨⟨gap, token⟩ :: segments, last, mark, ?_, hMark, ?_, ?_, ?_⟩
          · rw [hFound, hTokens]
            simp [Scanner.begin]
          · rw [hSource, List.flatMap_cons, List.append_assoc, hBehind, Segment.text, hSegment]
            simp
          · rw [hBehind]
            refine ⟨?_, ?_, ?_, ?_, ?_⟩
            · rwa [hSegment, ← hSource]
            · rwa [hSegment]
            · rwa [hSegment]
            · rwa [hSegment]
            · rw [Segment.text, hSegment, hStands, hAt]
          · rwa [Segment.text, hSegment]

variable {source : String} {tokens : List Token}

/-- A source that can be scanned is cut into the segments of its tokens. -/
theorem exists_cut (h : tokenize source = .ok tokens) :
    ∃ segments last mark, tokens = segments.map Segment.token ++ [mark] ∧ mark.kind = .eof ∧
      source.toList = segments.flatMap Segment.text ++ last ∧ Cut [] segments last := by
  unfold tokenize at h
  cases hScan : (Scanner.ofChars source.toList).scanTokens with
  | error failure =>
      rw [hScan] at h
      cases h
  | ok s =>
      rw [hScan] at h
      cases h
      exact Scanner.scanTokens_cut (s := Scanner.ofChars source.toList) [] .nil rfl hScan

/-! ## Kinds -/

theorem mem_of_lookup {α β : Type} [BEq α] [LawfulBEq α] {table : List (α × β)} {key : α}
    {entry : β} (h : table.lookup key = some entry) : (key, entry) ∈ table := by
  obtain ⟨front, back, rfl, -⟩ := List.lookup_eq_some_iff.mp h
  simp

/-- No text is that of an end mark. -/
theorem classify_ne_eof (text : List Char) : (classify text).1 ≠ .eof := by
  have hSigns : ∀ entry ∈ signs, entry.2 ≠ .eof := by decide
  have hWords : ∀ entry ∈ words, entry.2.1 ≠ .eof := by decide
  unfold classify
  split
  · exact TokenKind.noConfusion
  · split
    · next kind hLookup => exact hSigns _ (mem_of_lookup hLookup)
    · split
      · exact TokenKind.noConfusion
      · cases hLookup : words.lookup (String.ofList text) with
        | none => exact TokenKind.noConfusion
        | some entry => exact hWords _ (mem_of_lookup hLookup)

/-- Scanning is lossless and greedy. The source is the gaps and the lexemes of
its tokens in their order, with a last gap behind them; every lexeme is nonempty
and as long as it can be, the kind and the literal of its token are those of its
text, and the line counts the line ends up to its last character. One end mark
stands behind the tokens, and none of them is another. -/
theorem tokenize_lossless (h : tokenize source = .ok tokens) :
    ∃ (segments : List Segment) (last : List Char) (mark : Token),
      tokens = segments.map Segment.token ++ [mark] ∧ mark.kind = .eof ∧
      (∀ segment ∈ segments, segment.token.kind ≠ .eof) ∧
      source.toList = segments.flatMap Segment.text ++ last ∧ GapBefore [] last ∧
      ∀ front segment back, segments = front ++ segment :: back →
        segment.Fits (front.flatMap Segment.text) (back.flatMap Segment.text ++ last) := by
  obtain ⟨segments, last, mark, hTokens, hMark, hSource, hCut⟩ := exists_cut h
  refine ⟨segments, last, mark, hTokens, hMark, ?_, hSource, hCut.last_gap, ?_⟩
  · intro segment hSegment
    obtain ⟨front, back, hSegments⟩ := List.append_of_mem hSegment
    have hKind : segment.token.kind = (classify segment.lexeme).1 :=
      congrArg Prod.fst (hCut.fits hSegments).classified
    rw [hKind]
    exact classify_ne_eof _
  · intro front segment back hSegments
    simpa using hCut.fits hSegments

/-- A source with a keyword, a quotation over two lines, a number before a point, both
Boolean literals, and comments of both sorts, the last of them without a line end. -/
def cutSample : String := "for a_1=>\x22x\ny\x22-- c\n12.true;false//end"

def cutTokens : List Token := [
  ⟨.forWord, "for", .nothing, 1, 1⟩, ⟨.identifier, "a_1", .nothing, 1, 5⟩,
  ⟨.arrow, "=>", .nothing, 1, 8⟩, ⟨.string, "\x22x\ny\x22", .str "x\ny", 2, -1⟩,
  ⟨.integer, "12", .int 12, 3, 1⟩, ⟨.dot, ".", .nothing, 3, 3⟩,
  ⟨.boolean, "true", .bool true, 3, 4⟩, ⟨.semicolon, ";", .nothing, 3, 8⟩,
  ⟨.boolean, "false", .bool false, 3, 9⟩, ⟨.eof, "", .nothing, 3, 19⟩]

/-- The sample can be scanned, so it is the gaps and lexemes of its tokens. -/
theorem cutSample_lossless :
    tokenize cutSample = .ok cutTokens ∧
      ∃ (segments : List Segment) (last : List Char) (mark : Token),
        cutTokens = segments.map Segment.token ++ [mark] ∧ mark.kind = .eof ∧
        (∀ segment ∈ segments, segment.token.kind ≠ .eof) ∧
        cutSample.toList = segments.flatMap Segment.text ++ last ∧ GapBefore [] last ∧
        ∀ front segment back, segments = front ++ segment :: back →
          segment.Fits (front.flatMap Segment.text) (back.flatMap Segment.text ++ last) := by
  have hTokens : tokenize cutSample = .ok cutTokens := by
    with_unfolding_all rfl
  exact ⟨hTokens, tokenize_lossless hTokens⟩

end Mus
