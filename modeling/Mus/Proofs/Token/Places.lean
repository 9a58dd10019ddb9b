import Mathlib.Data.List.Induction
import Mus.Proofs.Token.Reading

/-! Where tokens say that they stand. The scanner counts a line end inside a
quotation as the first column of the line that it opens, so on such a line all
tokens stand one column too far. A token that goes over a line end has the line of
its end, and its column is counted back from there. All other tokens stand at the
first character of their lexeme. -/
namespace Mus

open Mus.Text

namespace Place

/-- A place further on in the same line. -/
def shift (place : Place) (columns : Nat) : Place := ⟨place.line, place.column + columns⟩

/-- The place behind two texts is the one behind the second, from behind the first. -/
theorem afterAll_append (place : Place) (first second : List Char) :
    place.afterAll (first ++ second) = (place.afterAll first).afterAll second :=
  List.foldl_append ..

/-- The line counts the line ends. -/
theorem afterAll_line (place : Place) (text : List Char) :
    (place.afterAll text).line = place.line + text.count '\n' := by
  induction text generalizing place with
  | nil => rfl
  | cons c text ih =>
      change ((place.after c).afterAll text).line = _
      rw [ih, List.count_cons, after]
      by_cases hEnd : c = '\n'
      · simp only [hEnd, if_true, beq_self_eq_true]
        omega
      · simp only [hEnd, if_false, beq_iff_eq, Nat.add_zero]

/-- A line end makes up for what came before it in its line. -/
theorem afterAll_shift_of_end {text : List Char} (h : '\n' ∈ text) (place : Place)
    (columns : Nat) : (place.shift columns).afterAll text = place.afterAll text := by
  induction text generalizing place columns with
  | nil => cases h
  | cons c text ih =>
      change ((place.shift columns).after c).afterAll text = (place.after c).afterAll text
      by_cases hEnd : c = '\n'
      · simp only [after, if_pos hEnd, shift]
      · have hText : '\n' ∈ text := (List.mem_cons.mp h).resolve_left (Ne.symm hEnd)
        have hAfter : (place.shift columns).after c = (place.after c).shift columns := by
          simp only [after, if_neg hEnd, shift, Nat.add_right_comm]
        rw [hAfter, ih hText]

/-- Without line ends, a lead in the column stays. -/
theorem afterAll_shift_of_line {text : List Char} (h : '\n' ∉ text) (place : Place)
    (columns : Nat) :
    (place.shift columns).afterAll text = (place.afterAll text).shift columns := by
  simp only [afterAll_of_line h, shift, Nat.add_right_comm]

/-- Behind a line end inside a lexeme, the scanner is one column ahead. -/
theorem behind_shift_of_end {text : List Char} (h : '\n' ∈ text) (place : Place)
    (columns : Nat) : (place.shift columns).behind text = (place.afterAll text).shift 1 := by
  have hColumn : text.foldl Scanner.columnAfter (place.column + columns) =
      (place.afterAll text).column + 1 := by
    induction text generalizing place columns with
    | nil => cases h
    | cons c text ih =>
        change text.foldl Scanner.columnAfter (Scanner.columnAfter (place.column + columns) c) =
          ((place.after c).afterAll text).column + 1
        by_cases hText : '\n' ∈ text
        · by_cases hEnd : c = '\n'
          · simpa only [Scanner.columnAfter, after, if_pos hEnd] using
              ih hText ⟨place.line + 1, 1⟩ 1
          · simpa only [Scanner.columnAfter, after, if_neg hEnd, Nat.add_right_comm] using
              ih hText ⟨place.line, place.column + 1⟩ columns
        · have hEnd : c = '\n' := ((List.mem_cons.mp h).resolve_right hText).symm
          rw [foldl_columnAfter_of_line hText, afterAll_of_line hText, Scanner.columnAfter, after,
            if_pos hEnd, if_pos hEnd]
          dsimp only
          omega
  unfold behind shift
  rw [hColumn, afterAll_line]

/-- What the scanner notes behind a lexeme on one line keeps its lead. -/
theorem behind_shift_of_line {text : List Char} (h : '\n' ∉ text) (place : Place)
    (columns : Nat) : (place.shift columns).behind text = (place.afterAll text).shift columns := by
  simp only [behind_of_line h, afterAll_of_line h, shift, Nat.add_right_comm]

end Place

/-! ## Where a lexeme starts -/

/-- Where the lexeme of a segment starts in the source, behind these segments. -/
def Segment.start (front : List Segment) (segment : Segment) : Place :=
  Place.afterAll ⟨1, 1⟩ (front.flatMap Segment.text ++ segment.gap)

/-- The last line end in front is one inside a lexeme, which then is a quotation. -/
def EndsInQuotation (front : List Segment) (gap : List Char) : Prop :=
  ∃ before quotation between, front = before ++ quotation :: between ∧
    '\n' ∈ quotation.lexeme ∧ '\n' ∉ between.flatMap Segment.text ++ gap

theorem endsInQuotation_nil (gap : List Char) : ¬EndsInQuotation [] gap := by
  rintro ⟨before, quotation, between, hFront, -, -⟩
  exact List.append_ne_nil_of_right_ne_nil before (List.cons_ne_nil _ _) hFront.symm

/-- A line end in the gap itself takes back any lead. -/
theorem endsInQuotation_of_end {gap : List Char} (h : '\n' ∈ gap) (front : List Segment) :
    ¬EndsInQuotation front gap := by
  rintro ⟨before, quotation, between, -, -, hNone⟩
  exact hNone (List.mem_append_right _ h)

/-- The segment just in front decides, or what stands before it. -/
theorem endsInQuotation_concat {gap : List Char} (h : '\n' ∉ gap) (front : List Segment)
    (segment : Segment) : EndsInQuotation (front ++ [segment]) gap ↔
      '\n' ∈ segment.lexeme ∨ '\n' ∉ segment.lexeme ∧ EndsInQuotation front segment.gap := by
  constructor
  · rintro ⟨before, quotation, between, hFront, hEnd, hNone⟩
    rcases List.eq_nil_or_concat between with rfl | ⟨between, last, rfl⟩
    · obtain ⟨rfl, hLast⟩ := List.append_inj' hFront rfl
      cases hLast
      exact .inl hEnd
    · rw [List.concat_eq_append] at hFront hNone
      rw [← List.cons_append, ← List.append_assoc] at hFront
      obtain ⟨rfl, hLast⟩ := List.append_inj' hFront rfl
      cases hLast
      simp only [List.flatMap_append, List.flatMap_cons, List.flatMap_nil, List.append_nil,
        Segment.text, List.mem_append, not_or] at hNone
      refine .inr ⟨hNone.1.2.2, before, quotation, between, rfl, hEnd, ?_⟩
      rw [List.mem_append, not_or]
      exact ⟨hNone.1.1, hNone.1.2.1⟩
  · rintro (hEnd | ⟨hLine, before, quotation, between, rfl, hEnd, hNone⟩)
    · exact ⟨front, segment, [], rfl, hEnd, by simpa using h⟩
    · refine ⟨before, quotation, between ++ [segment], by simp, hEnd, ?_⟩
      rw [List.mem_append, not_or] at hNone
      simp only [List.flatMap_append, List.flatMap_cons, List.flatMap_nil, List.append_nil,
        Segment.text, List.mem_append, not_or]
      exact ⟨⟨hNone.1, hNone.2, hLine⟩, h⟩

open Classical in
/-- How many columns the scanner is ahead behind these segments and a gap. -/
noncomputable def ahead (front : List Segment) (gap : List Char) : Nat :=
  if EndsInQuotation front gap then 1 else 0

theorem ahead_of_ends {front : List Segment} {gap : List Char} (h : EndsInQuotation front gap) :
    ahead front gap = 1 := if_pos h

theorem ahead_of_not_ends {front : List Segment} {gap : List Char}
    (h : ¬EndsInQuotation front gap) : ahead front gap = 0 := if_neg h

/-- What the scanner notes is the place in the source, but for the columns that it
is ahead. -/
theorem foldl_passed (front : List Segment) (gap : List Char) :
    (front.foldl Segment.passed ⟨1, 1⟩).afterAll gap =
      (Place.afterAll ⟨1, 1⟩ (front.flatMap Segment.text ++ gap)).shift (ahead front gap) := by
  -- The induction is on the segments from the last one on, which is the last one read.
  induction front using List.reverseRecOn generalizing gap with
  | nil =>
      rw [ahead_of_not_ends (endsInQuotation_nil gap)]
      rfl
  | append_singleton front segment ih =>
      rw [List.foldl_append, List.foldl_cons, List.foldl_nil, Segment.passed, ih,
        List.flatMap_append, List.flatMap_singleton, Segment.text]
      have hText : Place.afterAll ⟨1, 1⟩ (front.flatMap Segment.text ++
          (segment.gap ++ segment.lexeme) ++ gap) =
          ((segment.start front).afterAll segment.lexeme).afterAll gap := by
        simp only [Segment.start, Place.afterAll_append]
      rw [hText]
      change ((Place.shift (segment.start front) _).behind _).afterAll gap = _
      by_cases hGap : '\n' ∈ gap
      · rw [ahead_of_not_ends (endsInQuotation_of_end hGap (front ++ [segment]))]
        by_cases hEnd : '\n' ∈ segment.lexeme
        · rw [Place.behind_shift_of_end hEnd, Place.afterAll_shift_of_end hGap]
          rfl
        · rw [Place.behind_shift_of_line hEnd, Place.afterAll_shift_of_end hGap]
          rfl
      · by_cases hEnd : '\n' ∈ segment.lexeme
        · have hAhead : EndsInQuotation (front ++ [segment]) gap :=
            (endsInQuotation_concat hGap front segment).mpr (.inl hEnd)
          rw [Place.behind_shift_of_end hEnd, Place.afterAll_shift_of_line hGap,
            ahead_of_ends hAhead]
        · have hAhead : ahead (front ++ [segment]) gap = ahead front segment.gap := by
            unfold ahead
            congr 1
            rw [endsInQuotation_concat hGap, eq_iff_iff]
            simp [hEnd]
          rw [Place.behind_shift_of_line hEnd, Place.afterAll_shift_of_line hGap, hAhead]

/-! ## Where a token stands -/

/-- The place of a token, compared with that of its lexeme in the source. -/
structure Segment.Placed (front : List Segment) (segment : Segment) : Prop where
  /-- Exactly these tokens stand where their lexeme starts. -/
  accurate : segment.token.StandsAt (segment.start front) ↔
    '\n' ∉ segment.lexeme ∧ ¬EndsInQuotation front segment.gap
  /-- A line that starts inside a quotation is counted from the line end on. -/
  late : '\n' ∉ segment.lexeme → EndsInQuotation front segment.gap →
    segment.token.StandsAt ((segment.start front).shift 1)
  /-- A token over several lines has the line of its end and is counted back from
  there. -/
  long : '\n' ∈ segment.lexeme →
    segment.token.line = ((segment.start front).afterAll segment.lexeme).line ∧
      segment.token.column =
        ((segment.start front).afterAll segment.lexeme).column + 1 - segment.lexeme.length

/-- A token that is found where the scanner has come to is placed. -/
theorem Segment.placed_of_found {front : List Segment} {segment : Segment}
    (h : segment.token = segment.found (front.foldl Segment.passed ⟨1, 1⟩)) :
    segment.Placed front := by
  have hPassed : segment.passed (front.foldl Segment.passed ⟨1, 1⟩) =
      ((segment.start front).shift (ahead front segment.gap)).behind segment.lexeme := by
    rw [passed, foldl_passed]
    rfl
  have hLine : segment.token.line = (segment.passed (front.foldl Segment.passed ⟨1, 1⟩)).line :=
    congrArg Token.line h
  have hColumn : segment.token.column =
      (segment.passed (front.foldl Segment.passed ⟨1, 1⟩)).column - segment.lexeme.length :=
    congrArg Token.column h
  rw [hPassed] at hLine hColumn
  by_cases hEnd : '\n' ∈ segment.lexeme
  · rw [Place.behind_shift_of_end hEnd] at hLine hColumn
    have hCount : 0 < segment.lexeme.count '\n' := List.count_pos_iff.mpr hEnd
    refine ⟨⟨fun hStands => ?_, fun hOnLine => absurd hEnd hOnLine.1⟩,
      fun hOnLine => absurd hEnd hOnLine, fun _ => ⟨hLine, ?_⟩⟩
    · -- Its line is a later one than that of its first character.
      have hSame := hStands.1.symm.trans hLine
      simp only [Place.shift, Place.afterAll_line] at hSame
      omega
    · rw [hColumn, Place.shift, Int.natCast_add, Int.natCast_one]
  · have hStands : segment.token.StandsAt
        ((segment.start front).shift (ahead front segment.gap)) := by
      rw [Place.behind_shift_of_line hEnd, Place.afterAll_of_line hEnd] at hLine hColumn
      refine ⟨hLine, hColumn.trans ?_⟩
      simp only [Place.shift, Int.natCast_add]
      omega
    by_cases hAhead : EndsInQuotation front segment.gap
    · rw [ahead_of_ends hAhead] at hStands
      refine ⟨⟨fun hExact => ?_, fun hNot => absurd hAhead hNot.2⟩, fun _ _ => hStands,
        fun hLong => absurd hLong hEnd⟩
      have hSame := hExact.2.symm.trans hStands.2
      simp only [Place.shift, Int.natCast_add, Int.natCast_one] at hSame
      omega
    · rw [ahead_of_not_ends hAhead] at hStands
      exact ⟨⟨fun _ => ⟨hEnd, hAhead⟩, fun _ => hStands⟩, fun _ hLate => absurd hLate hAhead,
        fun hLong => absurd hLong hEnd⟩

/-- The token of each segment is the one that is found behind the segments before it. -/
theorem token_of_foundAll {place : Place} {segments front back : List Segment} {segment : Segment}
    (h : segments.map Segment.token = foundAll place segments)
    (hSegments : segments = front ++ segment :: back) :
    segment.token = segment.found (front.foldl Segment.passed place) := by
  rw [hSegments, foundAll_append, List.map_append] at h
  have hBack := List.append_inj_right h (by rw [List.length_map, length_foundAll])
  exact (List.cons.inj hBack).1

/-- The tokens of a source stand where their lexemes start, except for those over
several lines and those on a line that starts inside a quotation: these stand one
column too far, and those are placed by their end. -/
theorem tokenize_places {source : String} {tokens : List Token}
    (h : tokenize source = .ok tokens) :
    ∃ segments last mark, tokens = segments.map Segment.token ++ [mark] ∧ mark.kind = .eof ∧
      source.toList = segments.flatMap Segment.text ++ last ∧ Legible segments last ∧
      ∀ front segment back, segments = front ++ segment :: back → segment.Placed front := by
  obtain ⟨segments, last, line, column, hLegible, hSource, hTokens, hFound⟩ := exists_legible h
  exact ⟨segments, last, _, hTokens, rfl, hSource, hLegible, fun front segment back hSegments =>
    Segment.placed_of_found (token_of_foundAll hFound hSegments)⟩

/-- A text over two lines stands on the second one, before its first column, and the
name behind it one column too far. -/
theorem tokenize_places_two_lines :
    tokenize "\x22a\nb\x22 c" = .ok [
      ⟨.string, "\x22a\nb\x22", .str "a\nb", 2, -1⟩, ⟨.identifier, "c", .nothing, 2, 5⟩,
      ⟨.eof, "", .nothing, 2, 6⟩] ∧
    ∃ (segments : List Segment) (last : List Char) (mark : Token),
      [⟨.string, "\x22a\nb\x22", .str "a\nb", 2, -1⟩, ⟨.identifier, "c", .nothing, 2, 5⟩,
        ⟨.eof, "", .nothing, 2, 6⟩] = segments.map Segment.token ++ [mark] ∧ mark.kind = .eof ∧
      "\x22a\nb\x22 c".toList = segments.flatMap Segment.text ++ last ∧ Legible segments last ∧
      ∀ front segment back, segments = front ++ segment :: back → segment.Placed front := by
  have hTokens : tokenize "\x22a\nb\x22 c" = .ok [
      ⟨.string, "\x22a\nb\x22", .str "a\nb", 2, -1⟩, ⟨.identifier, "c", .nothing, 2, 5⟩,
      ⟨.eof, "", .nothing, 2, 6⟩] := by
    with_unfolding_all rfl
  exact ⟨hTokens, tokenize_places hTokens⟩

end Mus
