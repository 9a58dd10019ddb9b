import Mus.Machine.Basic
import Mus.Proofs.Token.Cut

/-! The tokens of a source. Their literals are plain, and no lexeme is written like
an array type. A name starts with a letter or an underscore, so that it is never
taken for the index of an array: letters are neither blanks nor digits in any
script. -/
namespace Mus

open Text (Ranges isLetter letterRanges)

/-- A token as it comes from a source. -/
structure Token.Sourced (token : Token) : Prop where
  plain : token.Plain
  type : token.kind = .identifier → Run.elementType? token.lexeme = none

/-! ## Names and numbers -/

/-- No range of the one set meets a range of the other. -/
def Text.Ranges.apart (first second : Ranges) : Bool :=
  first.all fun a => second.all fun b => a.2.blt b.1 || b.2.blt a.1

/-- A code point of one set is not in the other one, if no ranges meet. -/
theorem Text.Ranges.contains_of_apart {first second : Ranges} {point : Nat}
    (hApart : first.apart second = true) (h : first.contains point = true) :
    second.contains point = false := by
  obtain ⟨a, ha, hLow, hHigh⟩ := contains_iff.mp h
  have hMiss : ¬second.contains point = true := by
    intro hSecond
    obtain ⟨b, hb, hLow', hHigh'⟩ := contains_iff.mp hSecond
    have hPair := List.all_eq_true.mp (List.all_eq_true.mp hApart a ha) b hb
    simp only [Bool.or_eq_true, Nat.blt_eq] at hPair
    omega
  simpa using hMiss

theorem isBlank_of_letterRanges {c : Char} (h : letterRanges.contains c.toNat = true) :
    Text.isBlank c = false :=
  Ranges.contains_of_apart (by decide +kernel) h

/-- No letter beyond ASCII is a decimal digit. -/
theorem decimalValue?_of_letterRanges {c : Char} (hBeyond : 128 ≤ c.toNat)
    (h : letterRanges.contains c.toNat = true) : Text.decimalValue? c = none := by
  have hApart :
      letterRanges.apart (Text.decimalZeros.map fun first => (first, first + 9)) = true := by
    decide +kernel
  have hNone := Ranges.contains_of_apart hApart h
  unfold Text.decimalValue?
  rw [if_neg (by omega), Option.map_eq_none_iff, List.find?_eq_none]
  intro first hFirst hHolds
  simp only [Bool.and_eq_true, decide_eq_true_eq] at hHolds
  have hMem : (first, first + 9) ∈ Text.decimalZeros.map fun first => (first, first + 9) :=
    List.mem_map_of_mem hFirst
  rw [Ranges.contains_iff.mpr ⟨_, hMem, hHolds.1, Nat.le_of_lt_succ hHolds.2⟩] at hNone
  cases hNone

namespace Integer

/-- What does not start with a digit is not read as a number. -/
theorem readUnsigned_of_not_digit {c : Char} {rest : List Char} (h : c.isDigit = false) :
    readUnsigned (c :: rest) = .error .malformed := by
  unfold readUnsigned
  by_cases hUnderscore : c = '_'
  · simp [hUnderscore]
  · simp [h, hUnderscore]

/-- A character that no number starts with. -/
def opensNoNumber (c : Char) : Bool :=
  !isPadding c && c != '-' && c != '+' && !c.isDigit

/-- A text whose plain notation opens no number is malformed. -/
theorem read_of_opensNoNumber {c : Char} {cs rest : List Char} (hPlain : plain cs = c :: rest)
    (h : opensNoNumber c = true) : read cs = .error .malformed := by
  simp only [opensNoNumber, Bool.and_eq_true, Bool.not_eq_true', bne_iff_ne] at h
  obtain ⟨⟨⟨hPadding, hMinus⟩, hPlus⟩, hDigit⟩ := h
  have hDrop : (c :: rest).dropWhile isPadding = c :: rest := by
    rw [List.dropWhile_cons, if_neg (by simp [hPadding])]
  unfold read
  rw [hPlain, hDrop]
  split
  · next hHead => exact absurd (List.cons.inj hHead).1 hMinus
  · next hHead => exact absurd (List.cons.inj hHead).1 hPlus
  · rw [readUnsigned_of_not_digit hDigit]
    rfl

theorem opensNoNumber_of_ascii {c : Char} (hAscii : c.toNat < 128)
    (h : c.isAlpha = true ∨ c = '_') : c.toNat < 127 ∧ opensNoNumber c = true := by
  have hAll : ∀ n < 128, ((Char.ofNat n).isAlpha = true ∨ Char.ofNat n = '_') →
      n < 127 ∧ opensNoNumber (Char.ofNat n) = true := by
    decide
  have hChar := hAll c.toNat hAscii
  rw [Char.ofNat_toNat] at hChar
  exact hChar h

/-- What starts like a name is not read as a number. -/
theorem read_name {c : Char} {run : List Char} (h : isLetter c = true ∨ c = '_') :
    read (c :: run) = .error .malformed := by
  by_cases hAscii : c.toNat < 128
  · have hAlpha : c.isAlpha = true ∨ c = '_' := by simpa [isLetter, hAscii] using h
    obtain ⟨hBelow, hOpens⟩ := opensNoNumber_of_ascii hAscii hAlpha
    have hPlain : plain (c :: run) = c :: plain run := if_pos hBelow
    exact read_of_opensNoNumber hPlain hOpens
  · have hLetter : letterRanges.contains c.toNat = true := by
      rcases h with hLetter | rfl
      · simpa [isLetter, hAscii] using hLetter
      · exact absurd (by decide) hAscii
    have hPlain : plain (c :: run) = ['?'] := by
      simp [plain, isBlank_of_letterRanges hLetter,
        decimalValue?_of_letterRanges (by omega) hLetter, show ¬c.toNat < 127 by omega]
    exact read_of_opensNoNumber hPlain (by decide)

end Integer

/-! ## Scanning -/

/-- No lexeme is written like an array type: the bracket would end it. -/
theorem Longest.elementType?_eq {rest text : List Char} (h : Longest rest text) :
    Run.elementType? (String.ofList text) = none := by
  have hPrefix : ¬['a', 'r', 'r', 'a', 'y', '<'] <+: text := by
    rintro ⟨others, rfl⟩
    cases h with
    | number hDigits =>
        have hDigit := List.all_eq_true.mp hDigits 'a' (by simp)
        revert hDigit
        decide
    | word _ hRun =>
        have hWord := List.all_eq_true.mp hRun '<' (by simp)
        revert hWord
        decide
  unfold Run.elementType?
  simp [List.isPrefixOf_iff_prefix, hPrefix]

/-- Only a lexeme of digits is read as a number. -/
theorem Longest.read_eq {rest text : List Char} (h : Longest rest text)
    (hDigits : text.all Text.isDigit = false) : Integer.read text = .error .malformed := by
  cases h with
  | symbol hMem =>
      obtain ⟨kind, hSymbol⟩ := mem_symbols_iff.mp hMem
      unfold Scanner.symbol? at hSymbol
      split at hSymbol
      all_goals first | rfl | cases hSymbol
  | sign hSign =>
      simp only [openSigns, List.mem_cons, Prod.mk.injEq, List.not_mem_nil, or_false] at hSign
      rcases hSign with ⟨rfl, -⟩ | ⟨rfl, -⟩ | ⟨rfl, -⟩ | ⟨rfl, -⟩ | ⟨rfl, -⟩ | ⟨rfl, -⟩ <;> rfl
  | pair hPair =>
      simp only [Token.pairs, List.mem_cons, Prod.mk.injEq, List.not_mem_nil, or_false] at hPair
      rcases hPair with ⟨-, rfl, rfl⟩ | ⟨-, rfl, rfl⟩ | ⟨-, rfl, rfl⟩ | ⟨-, rfl, rfl⟩ |
        ⟨-, rfl, rfl⟩ <;> rfl
  | quotation => exact Integer.read_of_opensNoNumber (if_pos (by decide)) (by decide)
  | number hAll =>
      rw [hDigits] at hAll
      cases hAll
  | word hFirst => exact Integer.read_name hFirst

/-- A name is not written in digits. -/
theorem all_isDigit_of_identifier {text : List Char} (h : (classify text).1 = .identifier) :
    text.all Text.isDigit = false := by
  unfold classify at h
  split at h
  · cases h
  · split at h
    · next kind hSign =>
      have hSigns : ∀ entry ∈ signs, entry.2 ≠ .identifier := by decide
      obtain ⟨front, back, hSplit, -⟩ := List.lookup_eq_some_iff.mp hSign
      exact absurd h (hSigns (text, kind) (by simp [hSplit]))
    · split at h
      · cases h
      · next hDigits => simpa using hDigits

variable {source : String} {tokens : List Token}

/-- Each token but the end mark stands for a part of the source. -/
theorem exists_fits (h : tokenize source = .ok tokens) {token : Token} (hToken : token ∈ tokens)
    (hKind : token.kind ≠ .eof) :
    ∃ gap before behind, Segment.Fits before ⟨gap, token⟩ behind := by
  obtain ⟨segments, last, mark, hTokens, hMark, -, hCut⟩ := exists_cut h
  rw [hTokens] at hToken
  rcases List.mem_append.mp hToken with hMapped | hEnd
  · obtain ⟨segment, hSegment, rfl⟩ := List.mem_map.mp hMapped
    obtain ⟨front, back, hSplit⟩ := List.append_of_mem hSegment
    exact ⟨segment.gap, _, _, hCut.fits hSplit⟩
  · rw [List.mem_singleton.mp hEnd] at hKind
    exact absurd hMark hKind

/-- All tokens of a source are sourced: their literals are plain, and no name is an array type. -/
theorem tokenize_sourced (h : tokenize source = .ok tokens) : ∀ token ∈ tokens, token.Sourced := by
  intro token hToken
  refine ⟨tokenize_plain h token hToken, fun hKind => ?_⟩
  obtain ⟨gap, before, behind, hFits⟩ := exists_fits h hToken (by rw [hKind]; nofun)
  have hType := hFits.longest.elementType?_eq
  rwa [Segment.lexeme, String.ofList_toList] at hType

/-- No name of a source is read as a number. -/
theorem read_lexeme (h : tokenize source = .ok tokens) {token : Token} (hToken : token ∈ tokens)
    (hKind : token.kind = .identifier) :
    Integer.read token.lexeme.toList = .error .malformed := by
  obtain ⟨gap, before, behind, hFits⟩ := exists_fits h hToken (by rw [hKind]; nofun)
  refine hFits.longest.read_eq (all_isDigit_of_identifier ?_)
  rw [← hFits.classified]
  exact hKind

end Mus
