import Mus.Proofs.Line.Fragments

/-! The lines that tokens of the line dialect are noted on. The scanner counts the line ends that
it skips between tokens, those behind comments included, but not those that it reads inside a
string. So a token is noted on the line where it starts, unless a string in front of it goes over a
line end, and then on an earlier one. -/
namespace Mus.Line

/-- Line ends stand in gaps or in lexemes. -/
theorem count_text (fragments : List Fragment) (c : Char) :
    (fragments.flatMap Fragment.text).count c =
      (fragments.flatMap Fragment.gap).count c + (fragments.flatMap Fragment.lexeme).count c := by
  induction fragments with
  | nil => rfl
  | cons fragment fragments ih =>
      simp only [List.flatMap_cons, List.count_append, Fragment.text, ih]
      omega

namespace Fragment

variable {front : List Fragment} {fragment : Fragment}

/-- The line of the first character of a token, behind these fragments of its source. -/
def startLine (front : List Fragment) (fragment : Fragment) : Nat :=
  1 + (front.flatMap text ++ fragment.gap).count '\n'

/-- The line that a token is noted on, compared with the one where it starts. -/
structure Numbered (front : List Fragment) (fragment : Fragment) : Prop where
  /-- The line ends inside the tokens in front of it are missing. -/
  counted : fragment.token.line + (front.flatMap lexeme).count '\n' = fragment.startLine front
  /-- Exactly these tokens are noted on the line where they start. -/
  accurate : fragment.token.line = fragment.startLine front ↔
    ∀ earlier ∈ front, '\n' ∉ earlier.lexeme
  /-- Only strings go over a line end. -/
  string_of_end : '\n' ∈ fragment.lexeme → fragment.token.kind = .string

/-- Every fragment of a cut source is numbered: only line ends inside earlier strings are missed. -/
theorem numbered_of_cuts {back : List Fragment} {rest : List Char}
    (h : Cuts 1 (front ++ fragment :: back) rest) : fragment.Numbered front := by
  have hCounted : fragment.token.line + (front.flatMap lexeme).count '\n' =
      fragment.startLine front := by
    rw [h.token_line, startLine, List.count_append, count_text, List.flatMap_append,
      List.flatMap_singleton, List.count_append]
    omega
  refine ⟨hCounted, ?_, h.fits.spelled.kind_of_line_end⟩
  have hNone : (front.flatMap lexeme).count '\n' = 0 ↔
      ∀ earlier ∈ front, '\n' ∉ earlier.lexeme := by
    simp only [List.count_eq_zero, List.mem_flatMap, not_exists, not_and]
  rw [← hNone]
  omega

end Fragment

/-- The tokens of a source that can be scanned are noted on the lines where they start exactly if
no string in front of them goes over a line end. Otherwise the line ends inside the strings in
front are missing. -/
theorem tokenize_numbers {source : String} {tokens : List Token} {last : Scanner}
    (h : tokenize source = .ok (tokens, last)) :
    ∃ fragments gap, tokens = fragments.map Fragment.token ∧
      source.toList = fragments.flatMap Fragment.text ++ gap ∧ Skipped [] gap ∧
      ∀ front fragment back, fragments = front ++ fragment :: back →
        fragment.Fits (back.flatMap Fragment.text ++ gap) ∧ fragment.Numbered front := by
  obtain ⟨fragments, gap, hSource, hCuts, ⟨hGap, line, last', hScan⟩ | ⟨failure, hScan⟩⟩ :=
    exists_scan_cuts source
  · have hKinds : ∀ token ∈ fragments.map Fragment.token, token.kind ≠ .unknown := by
      intro token hToken
      obtain ⟨fragment, hMem, rfl⟩ := List.mem_map.mp hToken
      obtain ⟨front, back, rfl⟩ := List.append_of_mem hMem
      exact hCuts.fits.spelled.kind_ne_unknown
    refine ⟨fragments, gap, ?_, hSource, hGap, ?_⟩
    · unfold tokenize at h
      rw [hScan] at h
      dsimp only at h
      rw [List.filter_append, List.filter_eq_self.mpr (by simpa using hKinds)] at h
      have hTokens := congrArg Prod.fst (Except.ok.inj h)
      simpa using hTokens.symm
    · rintro front fragment back rfl
      exact ⟨hCuts.fits, Fragment.numbered_of_cuts hCuts⟩
  · unfold tokenize at h
    rw [hScan] at h
    cases h

/-- A string over two lines and a name behind it are both noted on the first line. -/
theorem tokenize_numbers_two_lines :
    ∃ last, tokenize "\x22a\nb\x22 c" =
        .ok ([⟨.string, "a\nb", 1⟩, ⟨.identifier, "c", 1⟩], last) ∧
      ∃ fragments gap,
        [⟨.string, "a\nb", 1⟩, ⟨.identifier, "c", 1⟩] = fragments.map Fragment.token ∧
        "\x22a\nb\x22 c".toList = fragments.flatMap Fragment.text ++ gap ∧ Skipped [] gap ∧
        ∀ front fragment back, fragments = front ++ fragment :: back →
          fragment.Fits (back.flatMap Fragment.text ++ gap) ∧ fragment.Numbered front := by
  have hTokens : tokenize "\x22a\nb\x22 c" =
      .ok ([⟨.string, "a\nb", 1⟩, ⟨.identifier, "c", 1⟩], ⟨7, [], 1⟩) := by
    rfl
  exact ⟨_, hTokens, tokenize_numbers hTokens⟩

end Mus.Line
