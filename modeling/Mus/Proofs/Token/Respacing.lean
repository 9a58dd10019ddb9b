import Mus.Proofs.Token.Reading

/-! Layout does not matter to the tokens. If the lexemes of a source are written
again with any blanks between them, the same tokens are found: a lexeme that is as
long as it can be stays so before a blank. -/
namespace Mus

open Mus.Text

/-- What a token is, without its place. -/
def Token.content (token : Token) : TokenKind × String × Value :=
  (token.kind, token.lexeme, token.literal)

/-- The lexemes of the tokens in order, with blanks between any two of them. -/
inductive Spaced : List Token → List Char → Prop where
  | none : Spaced [] []
  | last (token : Token) : Spaced [token] token.lexeme.toList
  | more (token : Token) {next : Token} {tokens : List Token} {gap text : List Char}
      (hGap : gap ≠ []) (hBlank : gap.all isGap = true) (hText : Spaced (next :: tokens) text) :
      Spaced (token :: next :: tokens) (token.lexeme.toList ++ (gap ++ text))

/-- Blanks are a gap before any rest. -/
theorem gapBefore_of_blank {gap : List Char} (h : gap.all isGap = true) (rest : List Char) :
    GapBefore rest gap := by
  induction gap with
  | nil => exact .nil
  | cons c gap ih =>
      rw [List.all_cons, Bool.and_eq_true] at h
      exact .blank h.1 (ih h.2)

/-- A blank does not lengthen a lexeme. -/
theorem Longest.free {rest text behind : List Char} (h : Longest rest text) (hFree : Free behind) :
    Longest behind text := by
  cases h with
  | symbol hSymbol => exact .symbol hSymbol
  | sign hSign _ =>
      have hSigns : openSigns.all (fun entry => entry.2.all (! isGap ·)) = true := by decide
      refine .sign hSign fun d hHead hSecond => ?_
      have hBlank := List.all_eq_true.mp (List.all_eq_true.mp hSigns _ hSign) d hSecond
      rw [hFree d hHead] at hBlank
      cases hBlank
  | pair hPair => exact .pair hPair
  | quotation hBody => exact .quotation hBody
  | number hDigits _ _ =>
      refine .number hDigits (fun d hHead => Token.isDigit_of_isGap (hFree d hHead)) ?_
      rintro d more rfl
      have hBlank : isGap '.' = true := hFree '.' rfl
      cases hBlank
  | word hFirst hRun _ =>
      exact .word hFirst hRun fun d hHead => Token.isWordChar_of_isGap (hFree d hHead)

/-- A legible segment stays so with other blanks in front, before any text that it is not read
into. -/
theorem Segment.Legible.free {segment : Segment} {rest behind : List Char}
    (h : segment.Legible rest) (hFree : Free behind) {gap : List Char}
    (hBlank : gap.all isGap = true) : Segment.Legible ⟨gap, segment.token⟩ behind :=
  ⟨gapBefore_of_blank hBlank _, h.nonempty, h.longest.free hFree, h.readable⟩

/-- Lexemes that could be read before can be read when they are spaced again. -/
theorem Spaced.legible {tokens : List Token} {text : List Char} (hSpaced : Spaced tokens text)
    {segments : List Segment} {last : List Char} (hTokens : segments.map Segment.token = tokens)
    (hLegible : Legible segments last) (lead : List Char) (hLead : lead.all isGap = true)
    (hNone : tokens = [] → lead = []) :
    ∃ again, again.map Segment.token = tokens ∧ lead ++ text = again.flatMap Segment.text ∧
      Legible again [] := by
  induction hSpaced generalizing segments lead with
  | none => exact ⟨[], rfl, by rw [hNone rfl]; rfl, .nil⟩
  | last token =>
      obtain ⟨segment, rest, rfl, rfl, -⟩ := List.map_eq_cons_iff.mp hTokens
      have hFree : Free [] := fun c hHead => by cases hHead
      refine ⟨[⟨lead, segment.token⟩], rfl, ?_, hLegible.1.free hFree hLead, .nil⟩
      simp [Segment.text, Segment.lexeme]
  | @more token next tokens gap text hGap hBlank hText ih =>
      obtain ⟨segment, rest, rfl, rfl, hRest⟩ := List.map_eq_cons_iff.mp hTokens
      obtain ⟨again, hAgain, hWritten, hReadable⟩ :=
        ih hRest hLegible.2 gap hBlank (fun hNil => by cases hNil)
      have hFree : Free (gap ++ text) := by
        obtain ⟨c, gap, rfl⟩ := List.exists_cons_of_ne_nil hGap
        exact free_cons (List.all_eq_true.mp hBlank c (List.mem_cons_self ..)) _
      refine ⟨⟨lead, segment.token⟩ :: again, by rw [List.map_cons, hAgain], ?_, ?_, hReadable⟩
      · rw [List.flatMap_cons, ← hWritten]
        simp [Segment.text, Segment.lexeme]
      · rw [List.append_nil, ← hWritten]
        exact hLegible.1.free hFree hLead

/-- What tokens are, places aside, is decided by their lexemes. -/
theorem content_foundAll (place : Place) (segments : List Segment) :
    (foundAll place segments).map Token.content = segments.map fun segment =>
      ((classify segment.lexeme).1, segment.token.lexeme, (classify segment.lexeme).2) := by
  induction segments generalizing place with
  | nil => rfl
  | cons segment segments ih => rw [foundAll, List.map_cons, ih]; rfl

/-- What is found depends on the texts of the segments only. -/
theorem content_congr {first second : List Segment}
    (h : first.map Segment.token = second.map Segment.token) (place place' : Place) :
    (foundAll place first).map Token.content = (foundAll place' second).map Token.content := by
  rw [content_foundAll, content_foundAll]
  have hTexts := congrArg (List.map fun token : Token =>
    ((classify token.lexeme.toList).1, token.lexeme, (classify token.lexeme.toList).2)) h
  rw [List.map_map, List.map_map] at hTexts
  exact hTexts

/-- If the lexemes of a source that can be scanned are written again, with any blanks
between them, the text can be scanned, and it gives the same kinds, lexemes and
literals. -/
theorem tokenize_respaced {source : String} {tokens : List Token} {text : List Char}
    (h : tokenize source = .ok tokens)
    (hSpaced : Spaced (tokens.filter fun token => token.kind != .eof) text) :
    ∃ again, tokenize (String.ofList text) = .ok again ∧
      again.map Token.content = tokens.map Token.content := by
  obtain ⟨segments, last, line, column, hLegible, -, hTokens, hFound⟩ := exists_legible h
  have hFilter : tokens.filter (fun token => token.kind != .eof) = segments.map Segment.token := by
    rw [hTokens, List.filter_append, List.filter_eq_self.mpr, List.filter_cons_of_neg (by simp)]
    · simp
    · intro token hMem
      rw [hFound] at hMem
      obtain ⟨start, segment, -, rfl⟩ := mem_foundAll hMem
      exact bne_iff_ne.mpr (classify_ne_eof _)
  rw [hFilter] at hSpaced
  obtain ⟨segments', hSame, hText, hLegible'⟩ :=
    hSpaced.legible rfl hLegible [] rfl (fun _ => rfl)
  obtain ⟨line', column', hAgain⟩ := tokenize_legible hLegible'
  rw [List.append_nil, ← hText] at hAgain
  refine ⟨_, hAgain, ?_⟩
  rw [hTokens, hFound, List.map_append, List.map_append, content_congr hSame ⟨1, 1⟩ ⟨1, 1⟩]
  rfl

/-- A source with a quotation over two lines, a number before a point, and comments of
both sorts. -/
def spacedSample : String := "a_1=>\x22x\ny\x22-- c\n12.z//end"

/-- The lexemes of the sample with other blanks between them and no comments. -/
def respacedSample : List Char :=
  "a_1".toList ++ ([' ', '\t'] ++ ("=>".toList ++ (['\n', '\n'] ++ ("\x22x\ny\x22".toList ++
    ([' '] ++ ("12".toList ++ (['\t'] ++ (".".toList ++ (['\n'] ++ "z".toList)))))))))

def sampleTokens : List Token := [
  ⟨.identifier, "a_1", .nothing, 1, 1⟩, ⟨.arrow, "=>", .nothing, 1, 4⟩,
  ⟨.string, "\x22x\ny\x22", .str "x\ny", 2, -1⟩, ⟨.integer, "12", .int 12, 3, 1⟩,
  ⟨.dot, ".", .nothing, 3, 3⟩, ⟨.identifier, "z", .nothing, 3, 4⟩]

/-- The sample keeps its tokens: the number does not take the point, and the name
before the comment is read alone. -/
theorem spacedSample_respaced :
    ∃ tokens, tokenize spacedSample = .ok tokens ∧
      Spaced (tokens.filter fun token => token.kind != .eof) respacedSample ∧
      ∃ again, tokenize (String.ofList respacedSample) = .ok again ∧
        again.map Token.content = tokens.map Token.content := by
  have hTokens : tokenize spacedSample = .ok (sampleTokens ++ [⟨.eof, "", .nothing, 3, 10⟩]) := by
    with_unfolding_all rfl
  have hSpaced : Spaced sampleTokens respacedSample :=
    .more _ (by decide) (by decide) (.more _ (by decide) (by decide)
      (.more _ (by decide) (by decide) (.more _ (by decide) (by decide)
        (.more _ (by decide) (by decide) (.last _)))))
  exact ⟨_, hTokens, hSpaced, tokenize_respaced hTokens hSpaced⟩

end Mus
