import Mus.Proofs.Line.Agreement

/-! How the scanner of the line dialect cuts a source. In front of each token stands a gap of
blanks and comments, which is as long as it can be, and the token is written in one of the
spellings of its kind. The tokens before a failure are cut off in the same way. -/
namespace Mus.Line

open Mus.Text

/-! ## Quotations -/

/-- A character of a quotation as it is written: it stands for itself, or it has a backslash in
front of it. -/
inductive Glyph where
  | plain (c : Char) (hQuote : c ≠ '\x22') (hEscape : c ≠ '\\')
  | escape (c : Char)

namespace Glyph

def chars : Glyph → List Char
  | plain c _ _ => [c]
  | escape c => ['\\', c]

/-- Is this no escape that the dialect does not know? -/
def isKnown : Glyph → Bool
  | plain _ _ _ => true
  | escape c => Scanner.isEscaped c

end Glyph

def written (glyphs : List Glyph) : List Char := glyphs.flatMap Glyph.chars

/-- The text of a quotation: unknown escapes are left out. -/
def keptText (glyphs : List Glyph) : List Char := written (glyphs.filter Glyph.isKnown)

theorem written_cons (glyph : Glyph) (glyphs : List Glyph) :
    written (glyph :: glyphs) = glyph.chars ++ written glyphs :=
  List.flatMap_cons

theorem keptText_cons (glyph : Glyph) (glyphs : List Glyph) :
    keptText (glyph :: glyphs) =
      (if glyph.isKnown then glyph.chars else []) ++ keptText glyphs := by
  unfold keptText
  cases hKnown : glyph.isKnown with
  | true => rw [List.filter_cons_of_pos hKnown, written_cons, if_pos rfl]
  | false =>
      rw [List.filter_cons_of_neg (by simp [hKnown]), if_neg Bool.false_ne_true, List.nil_append]

/-- The text of what is left is the same text. -/
theorem keptText_filter (glyphs : List Glyph) :
    keptText (glyphs.filter Glyph.isKnown) = keptText glyphs := by
  simp only [keptText, List.filter_filter, Bool.and_self]

namespace Scanner

/-- A character that is neither a quote nor a backslash belongs to a quotation as it is. -/
theorem stringText_plain {c : Char} (hQuote : c ≠ '\x22') (hEscape : c ≠ '\\')
    (rest : List Char) :
    stringText (c :: rest) =
      (c :: (stringText rest).1, (stringText rest).2.1 + 1, (stringText rest).2.2) := by
  rw [stringText, if_neg hQuote]
  · exact fun h _ => hEscape h
  · exact fun _ _ h _ => hEscape h

/-- Each glyph of a quotation is read in as many steps as it has characters, and kept if it is no
unknown escape. -/
theorem stringText_glyph (glyph : Glyph) (rest : List Char) :
    stringText (glyph.chars ++ rest) =
      ((if glyph.isKnown then glyph.chars else []) ++ (stringText rest).1,
        glyph.chars.length + (stringText rest).2.1, (stringText rest).2.2) := by
  cases glyph with
  | plain c hQuote hEscape =>
      have hText := stringText_plain hQuote hEscape rest
      rw [Nat.add_comm] at hText
      exact hText
  | escape c =>
      cases hKnown : isEscaped c <;>
        simp [Glyph.chars, Glyph.isKnown, stringText, hKnown, Nat.add_comm]

/-- Glyph by glyph the text is taken over, and the rest is read on. -/
theorem stringText_written (glyphs : List Glyph) (rest : List Char) :
    stringText (written glyphs ++ rest) =
      (keptText glyphs ++ (stringText rest).1,
        (written glyphs).length + (stringText rest).2.1, (stringText rest).2.2) := by
  induction glyphs with
  | nil => simp [written, keptText]
  | cons glyph glyphs ih =>
      rw [written_cons, keptText_cons, List.append_assoc, stringText_glyph, ih,
        List.append_assoc, List.length_append, Nat.add_assoc]

/-- If the rest adds no text, the text is that of the glyphs. -/
theorem stringText_ended {ending behind : List Char} {steps : Nat}
    (hEnding : stringText ending = ([], steps, behind)) (glyphs : List Glyph) :
    stringText (written glyphs ++ ending) =
      (keptText glyphs, (written glyphs).length + steps, behind) := by
  rw [stringText_written, hEnding, List.append_nil]

/-- A quotation goes on up to a quote or to the end of the source, where a last backslash may
stand alone. -/
theorem exists_glyphs (body : List Char) :
    ∃ glyphs ending, body = written glyphs ++ ending ∧
      ((∃ behind, ending = '\x22' :: behind) ∨ ending = [] ∨ ending = ['\\']) := by
  fun_induction stringText body with
  | case1 => exact ⟨[], [], rfl, .inr (.inl rfl)⟩
  | case2 => exact ⟨[], ['\\'], rfl, .inr (.inr rfl)⟩
  | case3 c rest text steps after hRest ih =>
      obtain ⟨glyphs, ending, rfl, hEnding⟩ := ih
      exact ⟨.escape c :: glyphs, ending, rfl, hEnding⟩
  | case4 rest => exact ⟨[], _, rfl, .inl ⟨_, rfl⟩⟩
  | case5 c rest hLast hEscaped hQuote text steps after hRest ih =>
      have hEscape : c ≠ '\\' := by
        rintro rfl
        cases rest with
        | nil => exact hLast rfl rfl
        | cons d rest => exact hEscaped d rest rfl rfl
      obtain ⟨glyphs, ending, rfl, hEnding⟩ := ih
      exact ⟨.plain c hQuote hEscape :: glyphs, ending, rfl, hEnding⟩

end Scanner

/-! ## Gaps -/

/-- A text that stands between tokens, in front of the given rest of the source. A comment runs up
to a line end or to the end of the source. -/
inductive Skipped (behind : List Char) : List Char → Prop where
  | nil : Skipped behind []
  | blank {c : Char} {gap : List Char} (hBlank : isBlank c = true) (hGap : Skipped behind gap) :
      Skipped behind (c :: gap)
  | comment {body gap : List Char} (hBody : '\n' ∉ body)
      (hEnd : ∀ c ∈ (gap ++ behind).head?, c = '\n') (hGap : Skipped behind gap) :
      Skipped behind ('-' :: '-' :: (body ++ gap))

def NoGap (chars : List Char) : Prop :=
  ∀ c rest, chars = c :: rest → isBlank c = false ∧ (c = '-' → rest.head? ≠ some '-')

/-- What is skipped from a place on: the rest of a comment, if the place is inside one, and a
gap. Only the line ends of the gap are passed, and they are counted. -/
structure Skips (inComment : Bool) (chars : List Char) (line : Nat) (body gap : List Char)
    (after : Scanner) : Prop where
  chars_eq : chars = body ++ (gap ++ after.rest)
  body_line : '\n' ∉ body
  body_end : ∀ c ∈ (gap ++ after.rest).head?, inComment = true → c = '\n'
  body_nil : inComment = false → body = []
  skipped : Skipped after.rest gap
  line_eq : after.line = line + gap.count '\n'
  stop : NoGap after.rest

namespace Scanner

variable {line : Nat} {c : Char} {rest body gap : List Char} {after : Scanner}

/-- A comment may be open only at the end of the source. -/
theorem skips_nothing {inComment : Bool} {chars : List Char} (position : Nat)
    (hComment : inComment = true → chars = []) (hStop : NoGap chars) :
    Skips inComment chars line [] [] ⟨position, chars, line⟩ where
  chars_eq := rfl
  body_line := List.not_mem_nil
  body_end := by
    intro c hHead hOpen
    rw [List.nil_append, hComment hOpen] at hHead
    cases hHead
  body_nil := fun _ => rfl
  skipped := .nil
  line_eq := rfl
  stop := hStop

/-- A comment goes on over every character but a line end. -/
theorem skips_comment (hLine : c ≠ '\n') (h : Skips true rest line body gap after) :
    Skips true (c :: rest) line (c :: body) gap after where
  chars_eq := by rw [h.chars_eq, List.cons_append]
  body_line := by
    rw [List.mem_cons, not_or]
    exact ⟨Ne.symm hLine, h.body_line⟩
  body_end := h.body_end
  body_nil := fun hNot => absurd hNot (by decide)
  skipped := h.skipped
  line_eq := h.line_eq
  stop := h.stop

/-- A blank is the end of a comment only if it is a line end. -/
theorem skips_blank {inComment : Bool} (hBlank : isBlank c = true)
    (hLine : inComment = true → c = '\n')
    (h : Skips false rest (if c = '\n' then line + 1 else line) body gap after) :
    Skips inComment (c :: rest) line [] (c :: gap) after where
  chars_eq := by rw [h.chars_eq, h.body_nil rfl, List.nil_append, List.nil_append, List.cons_append]
  body_line := List.not_mem_nil
  body_end := by
    rintro d hHead hComment
    cases hHead
    exact hLine hComment
  body_nil := fun _ => rfl
  skipped := .blank hBlank h.skipped
  line_eq := by
    rw [h.line_eq, List.count_cons]
    by_cases hEnd : c = '\n'
    · simp only [hEnd, if_true, beq_self_eq_true]
      omega
    · simp only [hEnd, if_false, beq_iff_eq, Nat.add_zero]
  stop := h.stop

/-- The second hyphen belongs to what the comment skips. -/
theorem skips_open (hNext : rest.head? = some '-') (h : Skips true rest line body gap after) :
    ∃ gap, Skips false ('-' :: rest) line [] gap after := by
  obtain ⟨d, body, rfl⟩ : ∃ d tail, body = d :: tail := by
    refine List.exists_cons_of_ne_nil ?_
    rintro rfl
    rw [h.chars_eq, List.nil_append] at hNext
    exact absurd (h.body_end '-' hNext rfl) (by decide)
  have hSecond : d = '-' := by
    rw [h.chars_eq] at hNext
    exact Option.some.inj hNext
  subst hSecond
  have hBody : '\n' ∉ body := fun hMem => h.body_line (List.mem_cons_of_mem _ hMem)
  refine ⟨'-' :: '-' :: (body ++ gap), ?_, List.not_mem_nil, ?_, fun _ => rfl, ?_, ?_, h.stop⟩
  · rw [h.chars_eq, List.nil_append, List.cons_append, List.cons_append, List.cons_append,
      List.append_assoc]
  · exact fun _ _ hNot => absurd hNot (by decide)
  · exact .comment hBody (fun c hHead => h.body_end c hHead rfl) h.skipped
  · rw [h.line_eq, List.count_cons, List.count_cons, List.count_append,
      List.count_eq_zero_of_not_mem hBody]
    simp

/-- A comment that is over, or none, where no blank is next. -/
theorem not_inComment {inComment : Bool} (hOver : ¬(inComment && c != '\n') = true)
    (hBlank : ¬isBlank c = true) : inComment = false := by
  cases inComment with
  | false => rfl
  | true =>
      have hEnd : c = '\n' := by simpa using hOver
      exact absurd (hEnd ▸ by decide) hBlank

/-- Skipping goes on as long as a gap does. -/
theorem exists_skips (inComment : Bool) (position line : Nat) (chars : List Char) :
    ∃ body gap, Skips inComment chars line body gap (skipFrom inComment position line chars) := by
  fun_induction skipFrom inComment position line chars with
  | case1 inComment position line =>
      refine ⟨[], [], skips_nothing position (fun _ => rfl) ?_⟩
      intro c rest hChars
      cases hChars
  | case2 inComment position line c rest hComment ih =>
      obtain ⟨body, gap, hSkips⟩ := ih
      simp only [Bool.and_eq_true, bne_iff_ne] at hComment
      exact ⟨c :: body, gap, hComment.1 ▸ skips_comment hComment.2 hSkips⟩
  | case3 inComment position line c rest hOver hBlank ih =>
      obtain ⟨body, gap, hSkips⟩ := ih
      refine ⟨[], c :: gap, skips_blank hBlank (fun hComment => ?_) hSkips⟩
      simpa [hComment] using hOver
  | case4 inComment position line c rest hOver hBlank hOpen ih =>
      obtain ⟨body, gap, hSkips⟩ := ih
      simp only [Bool.and_eq_true, beq_iff_eq] at hOpen
      obtain ⟨rfl, hNext⟩ := hOpen
      obtain rfl := not_inComment hOver hBlank
      exact ⟨[], skips_open hNext hSkips⟩
  | case5 inComment position line c rest hOver hBlank hClosed =>
      obtain rfl := not_inComment hOver hBlank
      refine ⟨[], [], skips_nothing position (fun hNot => absurd hNot (by decide)) ?_⟩
      intro d more hChars
      cases hChars
      simp only [Bool.and_eq_true, beq_iff_eq, not_and] at hClosed
      exact ⟨by simpa using hBlank, hClosed⟩

end Scanner

/-! ## Spellings -/

/-- The characters of a token, its kind and its text, in front of what is behind it in the source.
Behind a word, a number or an operator nothing stands that would make it longer. Only at the end of
the source a quotation may lack its closing quote, and then a last backslash is lost. -/
inductive Spelled (behind : List Char) : List Char → Kind → String → Prop where
  | word {c : Char} {run : List Char} (hFirst : isLetter c = true ∨ c = '_')
      (hRun : run.all isWordChar = true) (hNext : ∀ d ∈ behind.head?, isWordChar d = false) :
      Spelled behind (c :: run) (wordKind (String.ofList (c :: run))) (String.ofList (c :: run))
  | number {c : Char} {run : List Char} (hDigits : (c :: run).all isDigit = true)
      (hNext : ∀ d ∈ behind.head?, isDigit d = false) :
      Spelled behind (c :: run) .number (String.ofList (c :: run))
  | sign {c : Char} (hSign : String.singleton c ∈ operators)
      (hNext : ∀ d ∈ behind.head?, String.ofList [c, d] ∉ operators) :
      Spelled behind [c] .operator (String.singleton c)
  | pair {c d : Char} (hSign : String.singleton c ∈ operators)
      (hPair : String.ofList [c, d] ∈ operators) :
      Spelled behind [c, d] .operator (String.ofList [c, d])
  | separator {c : Char} (hSeparator : c ∈ separators) :
      Spelled behind [c] .separator (String.singleton c)
  | quotation (glyphs : List Glyph) :
      Spelled behind ('\x22' :: (written glyphs ++ ['\x22'])) .string
        (String.ofList (keptText glyphs))
  | unclosed (glyphs : List Glyph) {cut : List Char} (hCut : cut = [] ∨ cut = ['\\'])
      (hEnd : behind = []) :
      Spelled behind ('\x22' :: (written glyphs ++ cut)) .string
        (String.ofList (keptText glyphs))

namespace Spelled

variable {behind lexeme : List Char} {kind : Kind} {text : String}

theorem ne_nil (h : Spelled behind lexeme kind text) : lexeme ≠ [] := by
  cases h <;> exact List.cons_ne_nil _ _

/-- What is spelled is never the mark of the end. -/
theorem kind_ne_unknown (h : Spelled behind lexeme kind text) : kind ≠ .unknown := by
  cases h with
  | word => exact wordKind_ne_unknown _
  | _ => decide

/-- The text of a string is that of glyphs. -/
theorem exists_glyphs (h : Spelled behind lexeme .string text) :
    ∃ glyphs, text = String.ofList (keptText glyphs) := by
  generalize hKind : Kind.string = kind at h
  cases h with
  | word =>
      unfold wordKind at hKind
      split_ifs at hKind
  | quotation glyphs => exact ⟨glyphs, rfl⟩
  | unclosed glyphs => exact ⟨glyphs, rfl⟩
  | _ => cases hKind

/-- Only strings go over a line end. -/
theorem kind_of_line_end (h : Spelled behind lexeme kind text) (hEnd : '\n' ∈ lexeme) :
    kind = .string := by
  cases h with
  | word hFirst hRun hNext =>
      rcases List.mem_cons.mp hEnd with rfl | hMem
      · exact absurd hFirst (by decide)
      · exact absurd (List.all_eq_true.mp hRun _ hMem) (by decide)
  | number hDigits hNext => exact absurd (List.all_eq_true.mp hDigits _ hEnd) (by decide)
  | sign hSign hNext =>
      rw [← List.mem_singleton.mp hEnd] at hSign
      exact absurd hSign (by decide)
  | pair hSign hPair =>
      have hAll : Scanner.operatorPairs.all
          (fun pair => pair.1 != '\n' && pair.2 != '\n') = true := by
        decide
      have hApart := List.all_eq_true.mp hAll _ (Scanner.mem_operatorPairs hPair)
      simp only [Bool.and_eq_true, bne_iff_ne] at hApart
      simp only [List.mem_cons, List.not_mem_nil, or_false] at hEnd
      rcases hEnd with hFirst | hSecond
      · exact absurd hFirst.symm hApart.1
      · exact absurd hSecond.symm hApart.2
  | separator hSeparator =>
      rw [← List.mem_singleton.mp hEnd] at hSeparator
      exact absurd hSeparator (by decide)
  | quotation => rfl
  | unclosed => rfl

end Spelled

namespace Scanner

/-- A token that was read from characters on a line: they are a spelling of it and what remains,
and the line stays the same, also over a line end in the token. -/
def Spells (chars : List Char) (line : Nat) (found : Token × Scanner) : Prop :=
  ∃ lexeme, chars = lexeme ++ found.2.rest ∧
    Spelled found.2.rest lexeme found.1.kind found.1.text ∧
    found.1.line = line ∧ found.2.line = line

variable {scanner : Scanner} {c : Char} {rest : List Char}

/-- A run that starts with a character goes on up to the first one that does not belong to it. -/
theorem run_cons {belongs : Char → Bool} (hFirst : belongs c = true) (kindOf : String → Kind)
    (hRest : scanner.rest = c :: rest) :
    scanner.run belongs kindOf =
      (⟨kindOf (String.ofList (c :: rest.takeWhile belongs)),
          String.ofList (c :: rest.takeWhile belongs), scanner.line⟩,
        ⟨scanner.position + (c :: rest.takeWhile belongs).length, rest.dropWhile belongs,
          scanner.line⟩) := by
  unfold run
  rw [hRest, List.takeWhile_cons_of_pos hFirst, List.dropWhile_cons_of_pos hFirst]

/-- A run of word characters is a spelling of the word. -/
theorem spells_word (hFirst : isLetter c = true ∨ c = '_') (hRest : scanner.rest = c :: rest) :
    Spells (c :: rest) scanner.line (scanner.run isWordChar wordKind) := by
  have hWord : isWordChar c = true := by
    rcases hFirst with hLetter | rfl
    · exact isWordChar_of_isLetter hLetter
    · rfl
  rw [run_cons hWord wordKind hRest]
  refine ⟨c :: rest.takeWhile isWordChar, ?_, ?_, rfl, rfl⟩
  · rw [List.cons_append, List.takeWhile_append_dropWhile]
  · exact .word hFirst List.all_takeWhile (Mus.Scanner.head?_dropWhile_eq_false isWordChar rest)

theorem spells_number (hDigit : isDigit c = true) (hRest : scanner.rest = c :: rest) :
    Spells (c :: rest) scanner.line (scanner.run isDigit fun _ => .number) := by
  rw [run_cons hDigit _ hRest]
  refine ⟨c :: rest.takeWhile isDigit, ?_, ?_, rfl, rfl⟩
  · rw [List.cons_append, List.takeWhile_append_dropWhile]
  · refine .number ?_ (Mus.Scanner.head?_dropWhile_eq_false isDigit rest)
    rw [List.all_cons, hDigit, List.all_takeWhile, Bool.and_true]

/-- One or two characters are a spelling of an operator, and no second one is left that would make
it longer. -/
theorem spells_operator (hSign : String.singleton c ∈ operators) :
    Spells (c :: rest) scanner.line (scanner.operator c rest) := by
  cases rest with
  | nil =>
      refine ⟨[c], rfl, .sign hSign ?_, rfl, rfl⟩
      intro d hHead
      cases hHead
  | cons d rest =>
      by_cases hPair : String.ofList [c, d] ∈ operators
      · rw [operator_pair hPair]
        exact ⟨[c, d], rfl, .pair hSign hPair, rfl, rfl⟩
      · have hSingle : scanner.operator c (d :: rest) =
            (⟨.operator, String.singleton c, scanner.line⟩,
              ⟨scanner.position + 1, d :: rest, scanner.line⟩) := if_neg hPair
        rw [hSingle]
        refine ⟨[c], rfl, .sign hSign ?_, rfl, rfl⟩
        intro e hHead
        cases hHead
        exact hPair

/-- A quotation is spelled up to its closing quote, or up to the end of the source. -/
theorem spells_quotation (position line : Nat) (body : List Char) :
    Spells ('\x22' :: body) line
      (⟨.string, String.ofList (stringText body).1, line⟩,
        ⟨position + (stringText body).2.1, (stringText body).2.2, line⟩) := by
  obtain ⟨glyphs, ending, rfl, hEnding⟩ := exists_glyphs body
  rcases hEnding with ⟨behind, rfl⟩ | rfl | rfl
  · have hText := @stringText_ended ('\x22' :: behind) behind 1 rfl glyphs
    rw [hText]
    refine ⟨'\x22' :: (written glyphs ++ ['\x22']), ?_, .quotation glyphs, rfl, rfl⟩
    rw [List.cons_append, List.append_assoc]
    rfl
  · have hText := @stringText_ended [] [] 1 rfl glyphs
    rw [hText]
    exact ⟨'\x22' :: (written glyphs ++ []), (List.append_nil _).symm,
      .unclosed glyphs (.inl rfl) rfl, rfl, rfl⟩
  · have hText := @stringText_ended ['\\'] [] 3 rfl glyphs
    rw [hText]
    exact ⟨'\x22' :: (written glyphs ++ ['\\']), (List.append_nil _).symm,
      .unclosed glyphs (.inr rfl) rfl, rfl, rfl⟩

/-- Where a token starts, it is read in one of its spellings, or its first character is invalid. -/
theorem tokenAt_cases (hRest : scanner.rest = c :: rest) :
    scanner.tokenAt c rest = .error ⟨c, scanner⟩ ∨
      ∃ found, scanner.tokenAt c rest = .ok found ∧ Spells (c :: rest) scanner.line found := by
  unfold tokenAt
  split_ifs with hWord hDigit hQuote hSign hSeparator
  · refine .inr ⟨_, rfl, spells_word ?_ hRest⟩
    simpa using hWord
  · exact .inr ⟨_, rfl, spells_number hDigit hRest⟩
  · subst hQuote
    exact .inr ⟨_, rfl, spells_quotation (scanner.position + 1) scanner.line rest⟩
  · exact .inr ⟨_, rfl, spells_operator hSign⟩
  · exact .inr ⟨_, rfl, [c], rfl, .separator hSeparator, rfl, rfl⟩
  · exact .inl rfl

end Scanner

/-! ## Sources -/

/-- A token of a source, with its characters and the gap in front of them. -/
structure Fragment where
  gap : List Char
  lexeme : List Char
  token : Token

namespace Fragment

def text (fragment : Fragment) : List Char := fragment.gap ++ fragment.lexeme

/-- A fragment in front of what is behind it in the source. The gap ends where the lexeme
starts. -/
structure Fits (fragment : Fragment) (behind : List Char) : Prop where
  gap : Skipped (fragment.lexeme ++ behind) fragment.gap
  start : NoGap (fragment.lexeme ++ behind)
  spelled : Spelled behind fragment.lexeme fragment.token.kind fragment.token.text

/-- The token is on the line that comes after the line ends of the gap. -/
def IsOn (fragment : Fragment) (line : Nat) : Prop :=
  fragment.token.line = line + fragment.gap.count '\n'

end Fragment

/-- Fragments that fit, one after another, and the rest of the source. Each goes on from the line
of the token before it. -/
def Cuts (line : Nat) : List Fragment → List Char → Prop
  | [], _ => True
  | fragment :: fragments, rest =>
      (fragment.Fits (fragments.flatMap Fragment.text ++ rest) ∧ fragment.IsOn line) ∧
        Cuts fragment.token.line fragments rest

namespace Scanner

variable {scanner : Scanner}

/-- What the next step of a scan does: it comes to the end of the source behind a last gap, it
cuts off a fragment, or it fails. -/
inductive Step (scanner : Scanner) : Except Failure (Token × Scanner) → Prop where
  | ends {line : Nat} {last : Scanner} (hGap : Skipped [] scanner.rest) :
      Step scanner (.ok (⟨.unknown, "", line⟩, last))
  | cut {fragment : Fragment} {after : Scanner}
      (hRest : scanner.rest = fragment.text ++ after.rest) (hFits : fragment.Fits after.rest)
      (hLine : fragment.IsOn scanner.line) (hAfter : after.line = fragment.token.line) :
      Step scanner (.ok (fragment.token, after))
  | fails (failure : Failure) : Step scanner (.error failure)

/-- Each call of the scanner is one of the three steps. -/
theorem step_token (scanner : Scanner) : scanner.Step scanner.token := by
  obtain ⟨body, gap, hSkips⟩ := exists_skips false scanner.position scanner.line scanner.rest
  obtain rfl := hSkips.body_nil rfl
  change Skips _ _ _ _ _ scanner.skip at hSkips
  have hChars : scanner.rest = gap ++ scanner.skip.rest := hSkips.chars_eq
  have hGap := hSkips.skipped
  unfold token
  dsimp only
  cases hStart : scanner.skip.rest with
  | nil =>
      rw [hStart] at hGap hChars
      refine .ends ?_
      rwa [hChars, List.append_nil]
  | cons c rest =>
      dsimp only
      rcases tokenAt_cases hStart with hFails | ⟨⟨token, after⟩, hToken, hSpells⟩
      · rw [hFails]
        exact .fails _
      · obtain ⟨lexeme, hSplit, hSpelled, hLine, hAfter⟩ := hSpells
        rw [hToken]
        dsimp only at hSplit hSpelled hLine hAfter
        have hSplit' : scanner.skip.rest = lexeme ++ after.rest := hStart.trans hSplit
        rw [hSplit'] at hGap hChars
        refine @Step.cut scanner ⟨gap, lexeme, token⟩ after ?_ ⟨hGap, ?_, hSpelled⟩ ?_ ?_
        · rw [hChars, ← List.append_assoc]
          rfl
        · exact hSplit' ▸ hSkips.stop
        · exact hLine.trans hSkips.line_eq
        · exact hAfter.trans hLine.symm

/-- What a whole scan does: fragments are cut off one after another, up to the last gap of the
source or to a failure. -/
theorem exists_cuts {fuel : Nat} (hFuel : scanner.rest.length < fuel) :
    ∃ fragments rest, scanner.rest = fragments.flatMap Fragment.text ++ rest ∧
      Cuts scanner.line fragments rest ∧
      ((Skipped [] rest ∧ ∃ line last, tokens fuel scanner =
          (fragments.map Fragment.token ++ [⟨.unknown, "", line⟩], .ok last)) ∨
        ∃ failure, tokens fuel scanner = (fragments.map Fragment.token, .error failure)) := by
  induction fuel generalizing scanner with
  | zero => exact absurd hFuel (Nat.not_lt_zero _)
  | succ fuel ih =>
      have hStep := scanner.step_token
      rw [tokens]
      generalize scanner.token = result at hStep ⊢
      cases hStep with
      | ends hGap => exact ⟨[], scanner.rest, rfl, trivial, .inl ⟨hGap, _, _, rfl⟩⟩
      | fails failure => exact ⟨[], scanner.rest, rfl, trivial, .inr ⟨failure, rfl⟩⟩
      | @cut fragment after hRest hFits hLine hAfter =>
          -- A fragment takes a character at least, so the fuel lasts for what is left.
          have hShorter : after.rest.length < fuel := by
            have hLexeme := List.length_pos_of_ne_nil hFits.spelled.ne_nil
            rw [hRest, Fragment.text, List.length_append, List.length_append] at hFuel
            omega
          obtain ⟨fragments, rest, hChars, hCuts, hTokens⟩ := ih hShorter
          refine ⟨fragment :: fragments, rest, ?_, ⟨⟨hChars ▸ hFits, hLine⟩, hAfter ▸ hCuts⟩, ?_⟩
          · rw [hRest, hChars, List.flatMap_cons, List.append_assoc]
          · dsimp only
            rw [if_neg hFits.spelled.kind_ne_unknown]
            rcases hTokens with ⟨hGap, line, last, hTokens⟩ | ⟨failure, hTokens⟩
            · exact .inl ⟨hGap, line, last, by rw [hTokens]; rfl⟩
            · exact .inr ⟨failure, by rw [hTokens]; rfl⟩

end Scanner

/-- The cut of a source up to its last gap or to a failure. -/
theorem exists_scan_cuts (source : String) :
    ∃ fragments rest, source.toList = fragments.flatMap Fragment.text ++ rest ∧
      Cuts 1 fragments rest ∧
      ((Skipped [] rest ∧ ∃ line last,
          scan source = (fragments.map Fragment.token ++ [⟨.unknown, "", line⟩], .ok last)) ∨
        ∃ failure, scan source = (fragments.map Fragment.token, .error failure)) :=
  @Scanner.exists_cuts (.ofChars source.toList) _ (Nat.lt_succ_self _)

namespace Cuts

variable {line : Nat} {fragments front back : List Fragment} {fragment : Fragment}
  {rest : List Char}

/-- Each fragment of a cut source fits in front of those behind it. -/
theorem fits (h : Cuts line (front ++ fragment :: back) rest) :
    fragment.Fits (back.flatMap Fragment.text ++ rest) := by
  induction front generalizing line with
  | nil => exact h.1.1
  | cons earlier front ih => exact ih h.2

/-- The line of a token counts the line ends of all gaps up to it. -/
theorem token_line (h : Cuts line (front ++ fragment :: back) rest) :
    fragment.token.line = line + ((front ++ [fragment]).flatMap Fragment.gap).count '\n' := by
  induction front generalizing line with
  | nil =>
      have hFirst : fragment.token.line = line + fragment.gap.count '\n' := h.1.2
      simpa using hFirst
  | cons earlier front ih =>
      have hEarlier : earlier.token.line = line + earlier.gap.count '\n' := h.1.2
      rw [ih h.2, hEarlier, List.cons_append, List.flatMap_cons, List.count_append, Nat.add_assoc]

end Cuts

end Mus.Line
