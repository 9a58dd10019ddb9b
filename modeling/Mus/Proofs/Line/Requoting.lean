import Mus.Proofs.Line.Fragments
import Mus.Proofs.Line.Spaced

/-! The texts of strings between quotes. What the scanner keeps of a string are characters that
stand for themselves and known escapes, so between two quotes the text is a string again, and it
is kept as it is. -/
namespace Mus.Line

def requoted (text : String) : String := "\x22" ++ text ++ "\x22"

theorem toList_requoted (text : String) :
    (requoted text).toList = '\x22' :: (text.toList ++ ['\x22']) := by
  simp [requoted]

/-- The strings of a source have texts that glyphs leave, also those in front of a failure. -/
theorem exists_glyphs_of_string {source : String} {token : Token}
    (hToken : token ∈ (scan source).1) (hKind : token.kind = .string) :
    ∃ glyphs, token.text = String.ofList (keptText glyphs) := by
  obtain ⟨fragments, rest, -, hCuts, hScan⟩ := exists_scan_cuts source
  have hMem : token ∈ fragments.map Fragment.token := by
    rcases hScan with ⟨-, line, last, hScan⟩ | ⟨failure, hScan⟩
    · rw [hScan, List.mem_append, List.mem_singleton] at hToken
      rcases hToken with hToken | rfl
      · exact hToken
      · cases hKind
    · rwa [hScan] at hToken
  obtain ⟨fragment, hFragment, rfl⟩ := List.mem_map.mp hMem
  obtain ⟨front, back, rfl⟩ := List.append_of_mem hFragment
  have hSpelled := hCuts.fits.spelled
  rw [hKind] at hSpelled
  exact hSpelled.exists_glyphs

namespace Scanner

/-- What is kept of glyphs is written as known glyphs, which are all kept. -/
theorem stringText_keptText (glyphs : List Glyph) (behind : List Char) :
    stringText (keptText glyphs ++ '\x22' :: behind) =
      (keptText glyphs, (keptText glyphs).length + 1, behind) := by
  have hText := @stringText_ended ('\x22' :: behind) behind 1 rfl (glyphs.filter Glyph.isKnown)
  rwa [keptText_filter] at hText

/-- The text that was kept of a quotation is scanned to itself when it is quoted again, since no
unknown escape is left in it. -/
theorem token_keptText {scanner : Scanner} (glyphs : List Glyph) (behind : List Char)
    (hRest : scanner.rest = '\x22' :: (keptText glyphs ++ '\x22' :: behind)) :
    scanner.token =
      .ok (⟨.string, String.ofList (keptText glyphs), scanner.line⟩,
        ⟨scanner.position + ((keptText glyphs).length + 2), behind, scanner.line⟩) := by
  have hSteps : scanner.position + ((keptText glyphs).length + 2) =
      scanner.position + 1 + ((keptText glyphs).length + 1) := by
    omega
  rw [hSteps, token_of_start hRest (by decide) (fun h => absurd h (by decide))]
  simp only [tokenAt, stringText_keptText]
  rfl

/-- A quotation that takes up the whole source is its only token. -/
theorem tokens_keptText {scanner : Scanner} (glyphs : List Glyph) (fuel : Nat)
    (hRest : scanner.rest = '\x22' :: (keptText glyphs ++ ['\x22'])) :
    tokens (fuel + 2) scanner =
      ([⟨.string, String.ofList (keptText glyphs), scanner.line⟩, ⟨.unknown, "", scanner.line⟩],
        .ok ⟨scanner.position + ((keptText glyphs).length + 2), [], scanner.line⟩) := by
  have hString : Kind.string ≠ .unknown := by decide
  rw [tokens, token_keptText glyphs [] hRest]
  dsimp only
  rw [if_neg hString, tokens_end rfl]

end Scanner

/-- The text of a string is kept between quotes: whatever the source, and however the string ends
in it, the text in quotes is a source of one string with this text, and of nothing else. -/
theorem tokenize_requoted {source : String} {token : Token} (hToken : token ∈ (scan source).1)
    (hKind : token.kind = .string) :
    tokenize (requoted token.text) =
      .ok ([⟨.string, token.text, 1⟩], ⟨(requoted token.text).toList.length, [], 1⟩) := by
  obtain ⟨glyphs, hText⟩ := exists_glyphs_of_string hToken hKind
  have hChars : (requoted token.text).toList = '\x22' :: (keptText glyphs ++ ['\x22']) := by
    rw [toList_requoted, hText, String.toList_ofList]
  have hLength : (requoted token.text).toList.length = (keptText glyphs).length + 2 := by
    rw [hChars, List.length_cons, List.length_append, List.length_singleton]
  have hTokens := @Scanner.tokens_keptText (.ofChars (requoted token.text).toList) glyphs
    ((keptText glyphs).length + 1) hChars
  unfold tokenize scan
  rw [hLength, hTokens, ← hText]
  simp [Scanner.ofChars]

/-- A quote, a kept and a dropped escape, a line end, and a last backslash that the source cuts
off. -/
def cutShort : String := "x = \x22a\\\x22\\q\n\\\\b\\"

/-- The string that the source cuts off is closed by quoting it again. -/
theorem tokenize_requoted_cutShort :
    ⟨.string, "a\\\x22\n\\\\b", 1⟩ ∈ (scan cutShort).1 ∧
      tokenize "\x22a\\\x22\n\\\\b\x22" =
        .ok ([⟨.string, "a\\\x22\n\\\\b", 1⟩], ⟨9, [], 1⟩) := by
  have hToken : (⟨.string, "a\\\x22\n\\\\b", 1⟩ : Token) ∈ (scan cutShort).1 := by
    decide +kernel
  exact ⟨hToken, tokenize_requoted hToken rfl⟩

end Mus.Line
