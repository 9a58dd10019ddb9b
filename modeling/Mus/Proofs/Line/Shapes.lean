import Mus.Line.Execute
import Mus.Proofs.Line.Agreement

/-! How lines are told apart. Every statement starts with a word, and what follows the
word decides which one it is: an equals sign or an opening bracket, also after blanks, or
a point right behind it. A line that goes on in another way is carried out without any
effect. -/
namespace Mus

open Mus.Text

/-- No blank belongs to a word. -/
theorem Text.isWordChar_of_isBlank {c : Char} (h : isBlank c = true) : isWordChar c = false := by
  have hLetter : isLetter c = false := by
    by_contra hLetter
    rw [isBlank_of_isLetter (by simpa using hLetter)] at h
    cases h
  have hDigit : isDigit c = false := by
    by_contra hDigit
    rw [isBlank_of_isDigit (by simpa using hDigit)] at h
    cases h
  have hNumeral : numeralRanges.contains c.toNat = false :=
    Ranges.contains_of_apart (by decide +kernel) h
  have hUnderscore : c ≠ '_' := by
    rintro rfl
    exact absurd h (by decide)
  simp [isWordChar, isLetterOrNumeral, hLetter, hDigit, hNumeral, hUnderscore]

namespace Line.Shape

variable {text : String} {word blanks rest : List Char}

/-- A word goes on as long as characters can continue a name. -/
theorem word?_append (hNonempty : word ≠ []) (hWord : word.all isWordChar = true)
    (hNext : ∀ c ∈ rest.head?, isWordChar c = false) :
    word? (word ++ rest) = some (word, rest) := by
  obtain ⟨hTake, hDrop⟩ := span_append (List.all_eq_true.mp hWord) hNext
  unfold word?
  rw [hTake, hDrop]
  split
  · contradiction
  · rfl

theorem dropBlanks_append (hBlanks : blanks.all isBlank = true)
    (hNext : ∀ c ∈ rest.head?, isBlank c = false) : dropBlanks (blanks ++ rest) = rest :=
  (span_append (List.all_eq_true.mp hBlanks) hNext).2

theorem dropBlanks_cons {c : Char} (h : isBlank c = false) (rest : List Char) :
    dropBlanks (c :: rest) = c :: rest := by
  simp [dropBlanks, h]

/-- A word, blanks, and a character that is neither. -/
theorem word?_spaced {c : Char} (hNonempty : word ≠ []) (hWord : word.all isWordChar = true)
    (hBlanks : blanks.all isBlank = true) (hNext : isWordChar c = false) (rest : List Char) :
    word? (word ++ (blanks ++ c :: rest)) = some (word, blanks ++ c :: rest) := by
  apply word?_append hNonempty hWord
  intro first hFirst
  cases blanks with
  | nil =>
      cases Option.some.inj hFirst
      exact hNext
  | cons blank blanks =>
      cases Option.some.inj hFirst
      exact isWordChar_of_isBlank (List.all_eq_true.mp hBlanks first (List.mem_cons_self ..))

theorem dropBlanks_spaced {c : Char} (hBlanks : blanks.all isBlank = true)
    (hNext : isBlank c = false) (rest : List Char) :
    dropBlanks (blanks ++ c :: rest) = c :: rest := by
  apply dropBlanks_append hBlanks
  intro first hFirst
  cases Option.some.inj hFirst
  exact hNext

/-- Blanks in front of a character do not turn it into another one. -/
theorem head?_spaced_ne {c d : Char} (hBlanks : blanks.all isBlank = true)
    (hBlank : isBlank d = false) (hNext : c ≠ d) (rest : List Char) :
    (blanks ++ c :: rest).head? ≠ some d := by
  intro hHead
  cases blanks with
  | nil => exact hNext (Option.some.inj hHead)
  | cons blank blanks =>
      cases Option.some.inj hHead
      rw [List.all_eq_true.mp hBlanks d (List.mem_cons_self ..)] at hBlank
      cases hBlank

theorem after?_append (text : String) (rest : List Char) :
    after? text (text.toList ++ rest) = some rest := by
  simp [after?]

/-- Only what starts with the given text has anything after it. -/
theorem eq_append_of_after? {cs : List Char} (h : after? text cs = some rest) :
    cs = text.toList ++ rest := by
  unfold after? at h
  split at h
  case isTrue hPrefix =>
    obtain ⟨tail, rfl⟩ := List.isPrefixOf_iff_prefix.mp hPrefix
    simpa using h
  case isFalse => cases h

/-- What starts with another character does not start with the text. -/
theorem after?_eq_none {c : Char} {cs : List Char} (hText : text.toList.head? = some c)
    (hNext : cs.head? ≠ some c) : after? text cs = none := by
  by_contra hSome
  obtain ⟨rest, hRest⟩ := Option.ne_none_iff_exists'.mp hSome
  rw [eq_append_of_after? hRest] at hNext
  obtain ⟨tail, hTail⟩ := List.head?_eq_some_iff.mp hText
  simp [hTail] at hNext

/-! ## What follows the word -/

section

variable (hWord : word? text.toList = some (word, rest))
include hWord

/-- A line whose first word is not followed by an equals sign sets nothing. -/
theorem assignment?_eq_none (hNext : (dropBlanks rest).head? ≠ some '=') :
    assignment? text = none := by
  simp [assignment?, hWord, @after?_eq_none "=" '=' _ rfl hNext]

/-- A line whose first word is not followed by a parenthesis calls nothing. -/
theorem call?_eq_none (hNext : (dropBlanks rest).head? ≠ some '(') : call? text = none := by
  simp [call?, hWord, @after?_eq_none "(" '(' _ rfl hNext]

theorem isAccess_eq_false (hNext : (dropBlanks rest).head? ≠ some '[') :
    isAccess text = false := by
  simp [isAccess, hWord, @after?_eq_none "[" '[' _ rfl hNext]

/-- A line whose first word is not followed by a point adds to no array. -/
theorem push?_eq_none (hPoint : rest.head? ≠ some '.') : push? text = none := by
  simp [push?, hWord, @after?_eq_none ".push(" '.' _ rfl hPoint]

theorem pop?_eq_none (hPoint : rest.head? ≠ some '.') : pop? text = none := by
  simp [pop?, hWord, @after?_eq_none ".pop()" '.' _ rfl hPoint]

theorem isLength_eq_false (hPoint : rest.head? ≠ some '.') : isLength text = false := by
  simp [isLength, hWord, @after?_eq_none ".length()" '.' _ rfl hPoint]

end

/-- A line that adds to an array has a point right behind its word. -/
theorem exists_word_of_push? {name expression : String}
    (h : push? text = some (name, expression)) :
    ∃ word rest, word? text.toList = some (word, '.' :: rest) := by
  cases hWord : word? text.toList with
  | none => simp [push?, hWord] at h
  | some parts =>
      obtain ⟨word, rest⟩ := parts
      cases hAfter : after? ".push(" rest with
      | none => simp [push?, hWord, hAfter] at h
      | some inside =>
          rw [eq_append_of_after? hAfter]
          exact ⟨word, _, rfl⟩

end Line.Shape

namespace Line.Run

/-- A line that goes on with neither an equals sign nor an opening bracket nor a point
changes nothing and evaluates nothing. -/
theorem statementWith_idle {text : String} {word rest : List Char}
    (hWord : Shape.word? text.toList = some (word, rest))
    (hAssign : (Shape.dropBlanks rest).head? ≠ some '=')
    (hCall : (Shape.dropBlanks rest).head? ≠ some '(') (hPoint : rest.head? ≠ some '.')
    (evaluator : Evaluator) (call : String → List Value → Int → Run Value) (line : Int) :
    statementWith evaluator call text line = pure (Shape.isAccess text) := by
  unfold statementWith arrayOperation stringOperation
  rw [Shape.assignment?_eq_none hWord hAssign, Shape.call?_eq_none hWord hCall,
    Shape.push?_eq_none hWord hPoint, Shape.pop?_eq_none hWord hPoint,
    Shape.isLength_eq_false hWord hPoint]
  cases Shape.isAccess text <;> rfl

end Line.Run

end Mus
