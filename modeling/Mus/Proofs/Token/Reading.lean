import Mus.Proofs.Line.Agreement

/-! A source that is cut into gaps and lexemes is scanned to just this cut. The
scanner reads a gap, or a lexeme that is as long as it can be, and nothing beyond
it. What it adds for a lexeme is settled by its text and by the place reached. This
is the converse of the cut that every scanned source has. -/
namespace Mus

open Mus.Text
open Line.Scanner (not_special_of_isDigit not_special_of_first isDigit_of_first symbol_cases)

/-! ## Places behind a lexeme -/

namespace Place

/-- The place that the scanner notes behind the lexeme of a token. A line end inside
it already counts as a column of the line that it opens. -/
def behind (place : Place) (text : List Char) : Place :=
  ⟨place.line + text.count '\n', text.foldl Scanner.columnAfter place.column⟩

/-- Without line ends, the column counts the characters. -/
theorem foldl_columnAfter_of_line {text : List Char} (h : '\n' ∉ text) (column : Nat) :
    text.foldl Scanner.columnAfter column = column + text.length := by
  induction text generalizing column with
  | nil => rfl
  | cons c text ih =>
      rw [List.mem_cons, not_or] at h
      rw [List.foldl_cons, ih h.2, Scanner.columnAfter, if_neg (Ne.symm h.1), List.length_cons]
      omega

theorem behind_of_line {text : List Char} (h : '\n' ∉ text) (place : Place) :
    place.behind text = ⟨place.line, place.column + text.length⟩ := by
  unfold behind
  rw [List.count_eq_zero.mpr h, foldl_columnAfter_of_line h]
  rfl

end Place

/-! ## Lexemes -/

/-- If the text is made of digits, it is read as a number. -/
def Readable (text : List Char) : Prop :=
  text.all isDigit = true → numberLiteral text ≠ .nothing

/-- A lexeme of digits ends where no digit follows, not even behind a point. -/
theorem Longest.digits {text rest : List Char} (h : Longest rest text)
    (hDigits : text.all isDigit = true) (hNonempty : text ≠ []) :
    (∀ d ∈ rest.head?, isDigit d = false) ∧
      ∀ d more, rest = '.' :: d :: more → isDigit d = false := by
  have hFirst {c : Char} (hHead : text.head? = some c) : c ∉ Token.specials :=
    not_special_of_isDigit (List.all_eq_true.mp hDigits c (List.mem_of_mem_head? hHead))
  cases h with
  | symbol hMem =>
      obtain ⟨kind, hSymbol⟩ := mem_symbols_iff.mp hMem
      exact absurd (symbol_cases hSymbol).1.1 (hFirst rfl)
  | sign hSign hNext =>
      have hSigns : ∀ entry ∈ openSigns, entry.1 ∈ Token.specials := by decide
      exact absurd (hSigns _ hSign) (hFirst rfl)
  | pair hPair =>
      have hPairs : ∀ entry ∈ Token.pairs, entry.2.1 ∈ Token.specials := by decide
      exact absurd (hPairs _ hPair) (hFirst rfl)
  | quotation hBody =>
      refine absurd ?_ (hFirst rfl)
      decide
  | number hDigits hNext hPoint => exact ⟨hNext, hPoint⟩
  | word hWord hRun hNext =>
      have hDigit := List.all_eq_true.mp hDigits _ (List.mem_cons_self ..)
      rw [isDigit_of_first hWord] at hDigit
      cases hDigit

namespace Scanner

/-- One step of the scanner from `s` to `t` reads this lexeme, with the rest behind
it, and adds the token of it. -/
structure Reads (s t : Scanner) (text rest : List Char) : Prop where
  scan : s.scanToken = .ok t
  rest : t.rest = rest
  place : t.place = s.place.behind text
  tokens : t.tokens = s.tokens.push ⟨(classify text).1, String.ofList text, (classify text).2,
    t.line, t.column - text.length⟩

variable {s : Scanner} {c : Char} {text rest : List Char}

/-- A step that adds a token of a lexeme without line ends reads this lexeme. -/
theorem reads_emit {kind : TokenKind} {literal : Value}
    (hScan : s.scanToken = .ok ((s.past text rest).emit kind literal)) (hLine : '\n' ∉ text)
    (hClass : classify text = (kind, literal)) : ∃ t, Reads s t text rest := by
  refine ⟨_, hScan, rfl, ?_, ?_⟩
  · rw [Place.behind_of_line hLine]
    rfl
  · rw [hClass]
    rfl

section

variable (hLexeme : s.lexeme = [])

include hLexeme

theorem reads_symbol {kind : TokenKind} (hSymbol : symbol? c = some kind)
    (hRest : s.rest = c :: rest) : ∃ t, Reads s t [c] rest := by
  refine reads_emit ?_ ?_ (classify_symbol hSymbol)
  · rw [scanToken_cons hLexeme hRest]
    unfold scanAfter
    rw [hSymbol]
  · rw [List.mem_singleton]
    rintro rfl
    cases hSymbol

/-- A sign is read alone before a character that does not extend it. -/
theorem reads_sign {seconds : List Char} (hSign : (c, seconds) ∈ openSigns)
    (hNext : ∀ d ∈ rest.head?, d ∉ seconds) (hRest : s.rest = c :: rest) :
    ∃ t, Reads s t [c] rest := by
  have hAlone {second : Char} (h : second ∈ seconds) : ¬rest.head? = some second :=
    fun hHead => hNext second hHead h
  have hScan := scanToken_cons hLexeme hRest
  simp only [openSigns, List.mem_cons, Prod.mk.injEq, List.not_mem_nil, or_false] at hSign
  rcases hSign with ⟨rfl, rfl⟩ | ⟨rfl, rfl⟩ | ⟨rfl, rfl⟩ | ⟨rfl, rfl⟩ | ⟨rfl, rfl⟩ | ⟨rfl, rfl⟩
  · change _ = Except.ok (pair '=' .equals _ (pair '>' .arrow _ _)) at hScan
    rw [pair_past, if_neg (hAlone (by simp)), pair_past, if_neg (hAlone (by simp))] at hScan
    exact reads_emit hScan (by decide) rfl
  · change _ = Except.ok (pair '=' .notEquals _ _) at hScan
    rw [pair_past, if_neg (hAlone (by simp))] at hScan
    exact reads_emit hScan (by decide) rfl
  · change _ = Except.ok (pair '=' .greaterEqual _ _) at hScan
    rw [pair_past, if_neg (hAlone (by simp))] at hScan
    exact reads_emit hScan (by decide) rfl
  · change _ = Except.ok (pair '=' .lessEqual _ _) at hScan
    rw [pair_past, if_neg (hAlone (by simp))] at hScan
    exact reads_emit hScan (by decide) rfl
  · change _ = Except.ok (commentOr '-' .minus _) at hScan
    unfold commentOr at hScan
    rw [accept_past, if_neg (hAlone (by simp))] at hScan
    exact reads_emit hScan (by decide) rfl
  · change _ = Except.ok (commentOr '/' .divide _) at hScan
    unfold commentOr at hScan
    rw [accept_past, if_neg (hAlone (by simp))] at hScan
    exact reads_emit hScan (by decide) rfl

theorem reads_pair {kind : TokenKind} {first second : Char}
    (hPair : (kind, first, second) ∈ Token.pairs) (hRest : s.rest = first :: second :: rest) :
    ∃ t, Reads s t [first, second] rest := by
  have hLine : ∀ entry ∈ Token.pairs, '\n' ∉ [entry.2.1, entry.2.2] := by decide
  refine reads_emit ?_ (hLine _ hPair) (classify_pair hPair)
  rw [scanToken_cons hLexeme hRest]
  simp only [Token.pairs, List.mem_cons, Prod.mk.injEq, List.not_mem_nil, or_false] at hPair
  rcases hPair with ⟨rfl, rfl, rfl⟩ | ⟨rfl, rfl, rfl⟩ | ⟨rfl, rfl, rfl⟩ | ⟨rfl, rfl, rfl⟩ |
    ⟨rfl, rfl, rfl⟩ <;> rfl

end

/-- A run of characters ends where the next one does not belong to it. -/
theorem skip_run {p : Char → Bool} {run : List Char} (hRun : run.all p = true)
    (hNext : ∀ d ∈ rest.head?, p d = false) :
    (s.past text (run ++ rest)).skip p = s.past (text ++ run) rest := by
  obtain ⟨hTake, hDrop⟩ := span_append (List.all_eq_true.mp hRun) hNext
  rw [skip_past_eq, hTake, hDrop]

section

variable (hLexeme : s.lexeme = [])

include hLexeme

/-- A quotation is read up to the closing quote, over all line ends on the way. -/
theorem reads_quotation {body : List Char} (hBody : '\x22' ∉ body)
    (hRest : s.rest = '\x22' :: (body ++ '\x22' :: rest)) :
    ∃ t, Reads s t ('\x22' :: (body ++ ['\x22'])) rest := by
  have hAll : ∀ d ∈ body, (d != '\x22') = true := fun d hMem =>
    bne_iff_ne.mpr fun hEq => hBody (hEq ▸ hMem)
  have hTake : (body ++ '\x22' :: rest).takeWhile (· != '\x22') = body := by
    rw [List.takeWhile_append_of_pos hAll, List.takeWhile_cons_of_neg (by decide), List.append_nil]
  have hDrop : (body ++ '\x22' :: rest).dropWhile (· != '\x22') = '\x22' :: rest := by
    rw [List.dropWhile_append_of_pos hAll, List.dropWhile_cons_of_neg (by decide)]
  have hScan : s.scanToken = (s.past ['\x22'] (body ++ '\x22' :: rest)).string :=
    scanToken_cons hLexeme hRest
  unfold string at hScan
  dsimp only [past_rest] at hScan
  rw [hTake, hDrop] at hScan
  simp only [accept, if_true] at hScan
  refine ⟨_, hScan, rfl, ?_, ?_⟩
  · simp [place, emit, past, Place.behind, columnAfter]
  · rw [classify_quotation]
    simp [emit, past]

/-- A run of digits is read up to its end and taken for a number. -/
theorem scanToken_digits {run : List Char} (hDigits : (c :: run).all isDigit = true)
    (hNext : ∀ d ∈ rest.head?, isDigit d = false)
    (hPoint : ∀ d more, rest = '.' :: d :: more → isDigit d = false)
    (hRest : s.rest = c :: (run ++ rest)) :
    (∃ n, numberLiteral (c :: run) = .int n ∧
      s.scanToken = .ok ((s.past (c :: run) rest).emit .integer (.int n))) ∨
    numberLiteral (c :: run) = .nothing ∧ ∃ failure, s.scanToken = .error failure := by
  have hDigit : isDigit c = true := List.all_eq_true.mp hDigits c (List.mem_cons_self ..)
  have hRun : run.all isDigit = true := (Bool.and_eq_true_iff.mp hDigits).2
  have hSkip : (s.past [c] (run ++ rest)).skipNumber = s.past (c :: run) rest := by
    unfold skipNumber
    dsimp only
    rw [skip_run hRun hNext]
    split
    · next d more hMore => rw [if_neg (by simp [hPoint d more hMore])]; rfl
    · rfl
  rw [scanToken_cons hLexeme hRest,
    Token.scanAfter_of_not_special (not_special_of_isDigit hDigit), hDigit, if_pos rfl]
  unfold number numberLiteral
  dsimp only
  rw [hSkip, show (s.past (c :: run) rest).lexeme = c :: run from rfl]
  cases Integer.read (c :: run) with
  | ok n => exact .inl ⟨n, rfl, rfl⟩
  | error fault => cases fault <;> exact .inr ⟨rfl, _, rfl⟩

/-- A run of digits is read as a number if neither another digit nor a fraction follows. -/
theorem reads_number {run : List Char} (hDigits : (c :: run).all isDigit = true)
    (hNext : ∀ d ∈ rest.head?, isDigit d = false)
    (hPoint : ∀ d more, rest = '.' :: d :: more → isDigit d = false)
    (hReadable : Readable (c :: run)) (hRest : s.rest = c :: (run ++ rest)) :
    ∃ t, Reads s t (c :: run) rest := by
  have hFirst := not_special_of_isDigit (List.all_eq_true.mp hDigits c (List.mem_cons_self ..))
  rcases scanToken_digits hLexeme hDigits hNext hPoint hRest with ⟨n, hNumber, hScan⟩ | ⟨hNone, -⟩
  · refine reads_emit hScan (newline_not_mem_of_all (by decide) hDigits) ?_
    rw [classify_number hFirst hDigits, hNumber]
  · exact absurd hNone (hReadable hDigits)

/-- A run of word characters is read as a word if no other one follows. -/
theorem reads_word {run : List Char} (hFirst : isLetter c = true ∨ c = '_')
    (hRun : run.all isWordChar = true) (hNext : ∀ d ∈ rest.head?, isWordChar d = false)
    (hRest : s.rest = c :: (run ++ rest)) : ∃ t, Reads s t (c :: run) rest := by
  have hSpecial := not_special_of_first hFirst
  have hDigit := isDigit_of_first hFirst
  have hLine : '\n' ∉ c :: run := by
    refine List.not_mem_cons_of_ne_of_not_mem (fun hEq => hSpecial (hEq ▸ ?_))
      (newline_not_mem_of_all (by decide) hRun)
    simp [Token.specials]
  have hScan := scanToken_cons hLexeme hRest
  rw [Token.scanAfter_of_not_special hSpecial, hDigit, if_neg Bool.false_ne_true, if_pos hFirst]
    at hScan
  unfold identifier at hScan
  dsimp only at hScan
  rw [skip_run hRun hNext] at hScan
  exact reads_emit hScan hLine (classify_word hSpecial hDigit)

/-- A lexeme that is as long as it can be is read in one step. -/
theorem reads_of_longest (hLongest : Longest rest text) (hNonempty : text ≠ [])
    (hReadable : Readable text) (hRest : s.rest = text ++ rest) : ∃ t, Reads s t text rest := by
  cases hLongest with
  | symbol hMem =>
      obtain ⟨kind, hSymbol⟩ := mem_symbols_iff.mp hMem
      exact reads_symbol hLexeme hSymbol hRest
  | sign hSign hNext => exact reads_sign hLexeme hSign hNext hRest
  | pair hPair => exact reads_pair hLexeme hPair hRest
  | quotation hBody =>
      refine reads_quotation hLexeme hBody ?_
      rw [hRest, List.cons_append, List.append_assoc]
      rfl
  | number hDigits hNext hPoint =>
      obtain ⟨c, run, rfl⟩ := List.exists_cons_of_ne_nil hNonempty
      exact reads_number hLexeme hDigits hNext hPoint hReadable hRest
  | word hFirst hRun hNext => exact reads_word hLexeme hFirst hRun hNext hRest

/-- Digits that the scanner does not refuse are a number. -/
theorem readable_of_scanToken {t : Scanner} (hLongest : Longest rest text)
    (hNonempty : text ≠ []) (hRest : s.rest = text ++ rest) (hScan : s.scanToken = .ok t) :
    Readable text := by
  intro hDigits
  obtain ⟨hNext, hPoint⟩ := hLongest.digits hDigits hNonempty
  obtain ⟨c, run, rfl⟩ := List.exists_cons_of_ne_nil hNonempty
  rcases scanToken_digits hLexeme hDigits hNext hPoint hRest with
    ⟨n, hNumber, -⟩ | ⟨-, failure, hFail⟩
  · rw [hNumber]
    exact Value.noConfusion
  · rw [hFail] at hScan
    cases hScan

end

/-! ## Gaps -/

/-- Where tokens are found, the next step succeeds. -/
theorem scanToken_of_finds {tokens : List Token} (hFinds : s.finds = .ok tokens)
    (hRest : s.rest ≠ []) : ∃ t, s.begin.scanToken = .ok t := by
  have hEnd : ¬s.atEnd = true := fun hEnd => hRest (List.isEmpty_iff.mp hEnd)
  unfold finds at hFinds
  rw [scanTokens, if_neg hEnd] at hFinds
  split at hFinds
  · cases hFinds
  · next t hScan => exact ⟨t, hScan⟩

/-- A comment is read up to the end of its line. -/
theorem scanToken_comment {mark : Char} (hMark : mark = '-' ∨ mark = '/') (hLexeme : s.lexeme = [])
    {body : List Char} (hBody : '\n' ∉ body) (hNext : ∀ d ∈ rest.head?, d = '\n')
    (hRest : s.rest = mark :: mark :: (body ++ rest)) :
    s.scanToken = .ok (s.past (mark :: mark :: body) rest) := by
  have hRun : body.all (· != '\n') = true :=
    List.all_eq_true.mpr fun d hMem => bne_iff_ne.mpr fun hEq => hBody (hEq ▸ hMem)
  have hStop : ∀ d ∈ rest.head?, (d != '\n') = false := fun d hHead => by simp [hNext d hHead]
  have hScan := scanToken_cons hLexeme hRest
  rcases hMark with rfl | rfl
  · change _ = Except.ok (commentOr '-' .minus _) at hScan
    unfold commentOr at hScan
    rw [accept_past, List.head?_cons, if_pos rfl] at hScan
    exact hScan.trans (congrArg Except.ok (skip_run hRun hStop))
  · change _ = Except.ok (commentOr '/' .divide _) at hScan
    unfold commentOr at hScan
    rw [accept_past, List.head?_cons, if_pos rfl] at hScan
    exact hScan.trans (congrArg Except.ok (skip_run hRun hStop))

/-- Blanks and comments are left behind, and every line end is counted. -/
theorem finds_gapBefore {gap : List Char} (hGap : GapBefore rest gap)
    (hRest : s.rest = gap ++ rest) :
    ∃ t : Scanner, s.finds = t.finds ∧ t.rest = rest ∧ t.tokens = s.tokens ∧
      t.place = s.place.afterAll gap := by
  induction hGap generalizing s with
  | nil => exact ⟨s, rfl, hRest, rfl, rfl⟩
  | @blank c gap hBlank _ ih =>
      obtain ⟨u, hStep, hRestU, hTokensU, hPlaceU⟩ :=
        scanToken_gap hBlank (show s.begin.rest = c :: (gap ++ rest) from hRest)
      obtain ⟨t, hFinds, hRestT, hTokensT, hPlaceT⟩ := ih hRestU
      have hNonempty : s.rest ≠ [] := by
        rw [hRest]
        exact List.cons_ne_nil c _
      refine ⟨t, (finds_step hNonempty hStep).trans hFinds, hRestT, hTokensT.trans hTokensU, ?_⟩
      rw [hPlaceT, hPlaceU]
      rfl
  | @comment mark body gap hMark hBody hEnd _ ih =>
      have hSource : s.begin.rest = mark :: mark :: (body ++ (gap ++ rest)) := by
        rw [← List.append_assoc]
        exact hRest
      have hStep := scanToken_comment hMark rfl hBody hEnd hSource
      obtain ⟨t, hFinds, hRestT, hTokensT, hPlaceT⟩ := ih (s := s.begin.past _ (gap ++ rest)) rfl
      have hNonempty : s.rest ≠ [] := by
        rw [hRest]
        exact List.cons_ne_nil mark _
      refine ⟨t, (finds_step hNonempty hStep).trans hFinds, hRestT, hTokensT, ?_⟩
      have hLine : '\n' ∉ mark :: mark :: body := by
        rcases hMark with rfl | rfl <;> simpa using hBody
      have hPlace : (s.begin.past (mark :: mark :: body) (gap ++ rest)).place =
          s.place.afterAll (mark :: mark :: body) := by
        rw [Place.afterAll_of_line hLine]
        rfl
      rw [hPlaceT, hPlace]
      exact (List.foldl_append ..).symm

end Scanner

/-! ## The whole cut -/

namespace Segment

/-- The segment can be read wherever it stands before this rest. -/
structure Legible (segment : Segment) (behind : List Char) : Prop where
  gap : GapBefore (segment.lexeme ++ behind) segment.gap
  nonempty : segment.lexeme ≠ []
  longest : Longest behind segment.lexeme
  readable : Readable segment.lexeme

def passed (place : Place) (segment : Segment) : Place :=
  (place.afterAll segment.gap).behind segment.lexeme

/-- The token that is found for the segment from a place on. -/
def found (place : Place) (segment : Segment) : Token :=
  ⟨(classify segment.lexeme).1, segment.token.lexeme, (classify segment.lexeme).2,
    (segment.passed place).line, (segment.passed place).column - segment.lexeme.length⟩

/-- A legible segment is found: its gap is passed, and one more step reads its lexeme. -/
theorem finds_step {segment : Segment} {s : Scanner} {behind : List Char}
    (h : segment.Legible behind) (hRest : s.rest = segment.text ++ behind) :
    ∃ t : Scanner, s.finds = t.finds ∧ t.rest = behind ∧
      t.tokens = s.tokens.push (segment.found s.place) ∧ t.place = segment.passed s.place := by
  unfold text at hRest
  rw [List.append_assoc] at hRest
  obtain ⟨u, hFindsU, hRestU, hTokensU, hPlaceU⟩ := Scanner.finds_gapBefore h.gap hRest
  obtain ⟨t, hReads⟩ := Scanner.reads_of_longest (s := u.begin) rfl h.longest h.nonempty
    h.readable hRestU
  have hNonempty : u.rest ≠ [] := by
    rw [hRestU]
    exact fun hNil => h.nonempty (List.append_eq_nil_iff.mp hNil).1
  have hPlace : t.place = segment.passed s.place := by
    rw [hReads.place, passed, ← hPlaceU]
    rfl
  refine ⟨t, hFindsU.trans (Scanner.finds_step hNonempty hReads.scan), hReads.rest, ?_, hPlace⟩
  have hLine : t.line = (segment.passed s.place).line := congrArg Place.line hPlace
  have hColumn : t.column = (segment.passed s.place).column := congrArg Place.column hPlace
  rw [hReads.tokens, show u.begin.tokens = s.tokens from hTokensU, hLine, hColumn, lexeme,
    String.ofList_toList]
  rfl

end Segment

/-- Segments that can be read, one after another, and a last gap up to the end. -/
def Legible : List Segment → List Char → Prop
  | [], last => GapBefore [] last
  | segment :: segments, last =>
      segment.Legible (segments.flatMap Segment.text ++ last) ∧ Legible segments last

/-- The tokens that are found for segments from a place on. -/
def foundAll (place : Place) : List Segment → List Token
  | [] => []
  | segment :: segments => segment.found place :: foundAll (segment.passed place) segments

/-- What is found behind some segments starts from the place behind them. -/
theorem foundAll_append (place : Place) (front back : List Segment) :
    foundAll place (front ++ back) =
      foundAll place front ++ foundAll (front.foldl Segment.passed place) back := by
  induction front generalizing place with
  | nil => rfl
  | cons segment front ih => rw [List.cons_append, foundAll, ih]; rfl

/-- A text that is made of segments is scanned to their tokens and an end mark. -/
theorem Scanner.finds_legible {s : Scanner} {segments : List Segment} {last : List Char}
    (h : Legible segments last) (hRest : s.rest = segments.flatMap Segment.text ++ last) :
    ∃ line column, s.finds = .ok (s.tokens.toList ++
      (foundAll s.place segments ++ [⟨.eof, "", .nothing, line, column⟩])) := by
  induction segments generalizing s with
  | nil =>
      have hLast : s.rest = last ++ [] := by rw [hRest, List.append_nil]; rfl
      obtain ⟨t, hFinds, hRestT, hTokens, -⟩ := finds_gapBefore h hLast
      refine ⟨t.line, t.column, ?_⟩
      rw [hFinds, finds, scanTokens_end hRestT]
      change Except.ok (t.tokens.push _).toList = _
      rw [Array.toList_push, hTokens]
      rfl
  | cons segment segments ih =>
      rw [List.flatMap_cons, List.append_assoc] at hRest
      obtain ⟨t, hFinds, hRestT, hTokens, hPlace⟩ := Segment.finds_step h.1 hRest
      obtain ⟨line, column, hRestFinds⟩ := ih h.2 hRestT
      refine ⟨line, column, ?_⟩
      rw [hFinds, hRestFinds, hTokens, hPlace, Array.toList_push, List.append_assoc]
      rfl

/-- A source that is made of legible segments is scanned to what is found for them. -/
theorem tokenize_legible {segments : List Segment} {last : List Char}
    (h : Legible segments last) :
    ∃ line column, tokenize (String.ofList (segments.flatMap Segment.text ++ last)) =
      .ok (foundAll ⟨1, 1⟩ segments ++ [⟨.eof, "", .nothing, line, column⟩]) := by
  unfold tokenize
  rw [String.toList_ofList]
  exact Scanner.finds_legible h rfl

theorem length_foundAll (place : Place) (segments : List Segment) :
    (foundAll place segments).length = segments.length := by
  induction segments generalizing place with
  | nil => rfl
  | cons segment segments ih => rw [foundAll, List.length_cons, ih, List.length_cons]

/-- Segments that were found can be read. -/
theorem Cut.legible {before last : List Char} {segments : List Segment} {s : Scanner}
    {tokens : List Token} (hCut : Cut before segments last)
    (hRest : s.rest = segments.flatMap Segment.text ++ last) (hFinds : s.finds = .ok tokens) :
    Legible segments last := by
  induction segments generalizing s before with
  | nil => exact hCut
  | cons segment segments ih =>
      obtain ⟨⟨hGap, hNonempty, hLongest, -, -⟩, hCut⟩ := hCut
      rw [List.flatMap_cons, List.append_assoc] at hRest
      have hReadable : Readable segment.lexeme := by
        rw [Segment.text, List.append_assoc] at hRest
        obtain ⟨u, hFindsU, hRestU, -, -⟩ := Scanner.finds_gapBefore hGap hRest
        obtain ⟨t, hScan⟩ := Scanner.scanToken_of_finds (hFindsU ▸ hFinds) (by
          rw [hRestU]
          exact fun hNil => hNonempty (List.append_eq_nil_iff.mp hNil).1)
        exact Scanner.readable_of_scanToken (s := u.begin) rfl hLongest hNonempty hRestU hScan
      have hLegible : segment.Legible (segments.flatMap Segment.text ++ last) :=
        ⟨hGap, hNonempty, hLongest, hReadable⟩
      obtain ⟨t, hFindsT, hRestT, -, -⟩ := Segment.finds_step hLegible hRest
      exact ⟨hLegible, ih hCut hRestT (hFindsT ▸ hFinds)⟩

/-- A source that can be scanned is cut into segments that can be read, and its
tokens are those that are found for them. -/
theorem exists_legible {source : String} {tokens : List Token}
    (h : tokenize source = .ok tokens) :
    ∃ segments last line column, Legible segments last ∧
      source.toList = segments.flatMap Segment.text ++ last ∧
      tokens = segments.map Segment.token ++ [⟨.eof, "", .nothing, line, column⟩] ∧
      segments.map Segment.token = foundAll ⟨1, 1⟩ segments := by
  obtain ⟨segments, last, mark, hTokens, -, hSource, hCut⟩ := exists_cut h
  have hLegible : Legible segments last :=
    hCut.legible (s := Scanner.ofChars source.toList) hSource h
  obtain ⟨line, column, hAgain⟩ := tokenize_legible hLegible
  rw [← hSource, String.ofList_toList, h, hTokens] at hAgain
  obtain ⟨hFound, hMark⟩ := List.append_inj (Except.ok.inj hAgain)
    (by rw [List.length_map, length_foundAll])
  exact ⟨segments, last, line, column, hLegible, hSource, hMark ▸ hTokens, hFound⟩

/-! ## Literals -/

/-- A text of a kind that has literals has one. -/
theorem classify_valued {text : List Char} (h : Readable text)
    (hKind : (classify text).1 ∈ [.integer, .string, .boolean]) : (classify text).2 ≠ .nothing := by
  have hSigns : ∀ entry ∈ signs, entry.2 ∉ [.integer, .string, .boolean] := by decide
  have hWords : ∀ entry ∈ words, entry.2.1 ∈ [.integer, .string, .boolean] →
      entry.2.2 ≠ .nothing := by
    simp [words]
  unfold classify at hKind ⊢
  split at hKind
  · next hQuote =>
    rw [if_pos hQuote]
    exact Value.noConfusion
  · next hQuote =>
    rw [if_neg hQuote]
    split at hKind
    · next kind hSign => exact absurd hKind (hSigns _ (mem_of_lookup hSign))
    · split at hKind
      · next hDigits =>
        rw [if_pos hDigits]
        exact h hDigits
      · next hDigits =>
        rw [if_neg hDigits]
        cases hWord : words.lookup (String.ofList text) with
        | none =>
            have hName : TokenKind.identifier ∉ [.integer, .string, .boolean] := by decide
            rw [hWord] at hKind
            exact absurd hKind hName
        | some entry =>
            rw [hWord] at hKind
            exact hWords _ (mem_of_lookup hWord) hKind

/-- Each token that is found is found for one of the segments. -/
theorem mem_foundAll {place : Place} {segments : List Segment} {token : Token}
    (h : token ∈ foundAll place segments) :
    ∃ (start : Place) (segment : Segment), segment ∈ segments ∧ token = segment.found start := by
  induction segments generalizing place with
  | nil => cases h
  | cons segment segments ih =>
      rcases List.mem_cons.mp h with rfl | hMem
      · exact ⟨place, segment, List.mem_cons_self .., rfl⟩
      · obtain ⟨start, other, hOther, hToken⟩ := ih hMem
        exact ⟨start, other, List.mem_cons_of_mem _ hOther, hToken⟩

/-- What is legible has no number that cannot be read. -/
theorem Legible.readable {segments : List Segment} {last : List Char} (h : Legible segments last)
    {segment : Segment} (hMem : segment ∈ segments) : Readable segment.lexeme := by
  induction segments with
  | nil => cases hMem
  | cons first segments ih =>
      rcases List.mem_cons.mp hMem with rfl | hRest
      · exact h.1.readable
      · exact ih h.2 hRest

/-- The numbers, texts and truth values of a source have a literal. -/
theorem tokenize_valued {source : String} {tokens : List Token} (h : tokenize source = .ok tokens)
    {token : Token} (hMem : token ∈ tokens) (hKind : token.kind ∈ [.integer, .string, .boolean]) :
    token.literal ≠ .nothing := by
  obtain ⟨segments, last, line, column, hLegible, -, hTokens, hFound⟩ := exists_legible h
  rw [hTokens, hFound] at hMem
  rcases List.mem_append.mp hMem with hMem | hMark
  · obtain ⟨start, segment, hSegment, rfl⟩ := mem_foundAll hMem
    exact classify_valued (hLegible.readable hSegment) hKind
  · rw [List.mem_singleton.mp hMark] at hKind
    have hEnd : TokenKind.eof ∉ [.integer, .string, .boolean] := by decide
    exact absurd hKind hEnd

end Mus
