import Mathlib.Order.Bounds.Basic
import Mus.Proofs.Syntax.Steps

/-! Where recovery from a syntax error stops. It leaves one token behind in any case and reads on to
the first place where parsing can go on. A closing brace is looked for behind the place and a word
that starts a statement ahead of it, so the token at fault counts if it is a brace, but not if it
is such a word. -/
namespace Mus

def resumingWords : List TokenKind :=
  [.classWord, .funWord, .varWord, .ifWord, .whileWord, .forWord, .returnWord]

/-- Parsing can go on at a position of a list of tokens with its first end mark at `mark`: at the
end mark, right behind a closing brace, or before one of the words. -/
def Resumable (tokens : List Token) (mark position : Nat) : Prop :=
  position = mark ∨ tokens[position - 1]?.map Token.kind = some .rightBrace ∨
    ∃ kind ∈ resumingWords, tokens[position]?.map Token.kind = some kind

def firstMark? (tokens : List Token) : Option Nat :=
  tokens.findIdx? fun token => token.kind == .eof

section

variable {tokens : List Token} {mark index : Nat} {token : Token}

theorem lt_length_of_firstMark (hMark : firstMark? tokens = some mark) : mark < tokens.length := by
  obtain ⟨hLt, -⟩ := List.findIdx?_eq_some_iff_getElem.mp hMark
  exact hLt

/-- Up to the first end mark, no other token is one. -/
theorem kind_eof_iff (hMark : firstMark? tokens = some mark) (hIndex : index ≤ mark)
    (hToken : tokens[index]? = some token) : token.kind = .eof ↔ index = mark := by
  obtain ⟨hLt, hKind, hEarlier⟩ := List.findIdx?_eq_some_iff_getElem.mp hMark
  obtain ⟨hLength, rfl⟩ := List.getElem?_eq_some_iff.mp hToken
  constructor
  · intro hEnd
    by_contra hNe
    exact hEarlier index (by omega) (by simpa using hEnd)
  · rintro rfl
    simpa using hKind

/-- The words before which parsing goes on are exactly those of the table. -/
theorem startsStatement_iff (kind : TokenKind) :
    Parse.startsStatement kind = true ↔ kind ∈ resumingWords :=
  List.contains_iff_mem

end

/-! ## Places in a list -/

namespace Cursor

/-- The place before the token with this index. Other tokens stand in front of the list. -/
def inside (earlier tokens : List Token) (recovered : List SyntaxError) (index : Nat) : Cursor :=
  ⟨(tokens.take index).reverse ++ earlier, tokens.drop index, recovered⟩

variable {tokens : List Token} {index : Nat}

/-- The list stands twice, and positions count from the start of the second time. -/
theorem seek_eq (hIndex : index ≤ tokens.length) :
    seek tokens index = some (inside tokens.reverse tokens [] index) := by
  have hNat : ((index : Int) + tokens.length).toNat = tokens.length + index := by omega
  unfold seek
  dsimp only
  rw [if_pos (by omega), hNat, List.take_length_add_append, List.drop_length_add_append,
    List.reverse_append]
  rfl

/-- The place before a token has the index of the token as its position. -/
theorem position_inside (hIndex : index ≤ tokens.length) (recovered : List SyntaxError) :
    (inside tokens.reverse tokens recovered index).position tokens = index := by
  simp only [position, inside, List.length_append, List.length_reverse, List.length_take]
  omega

/-- Before an index of the list there is the token with this index. -/
theorem exists_inside (earlier : List Token) (recovered : List SyntaxError)
    (hIndex : index < tokens.length) :
    ∃ token, tokens[index]? = some token ∧
      inside earlier tokens recovered index =
        ⟨(tokens.take index).reverse ++ earlier, token :: tokens.drop (index + 1), recovered⟩ ∧
      inside earlier tokens recovered (index + 1) =
        ⟨token :: ((tokens.take index).reverse ++ earlier), tokens.drop (index + 1),
          recovered⟩ := by
  refine ⟨tokens[index], List.getElem?_eq_getElem hIndex, ?_, ?_⟩
  · rw [inside, List.drop_eq_getElem_cons hIndex]
  · rw [inside, List.take_succ_eq_append_getElem hIndex, List.reverse_append]
    rfl

end Cursor

namespace Parse

open Cursor

variable {tokens : List Token} {mark index start : Nat} (earlier : List Token)
  (recovered : List SyntaxError)

/-- The test of recovery at a position behind the first. -/
theorem stops_iff (hMark : firstMark? tokens = some mark) (hIndex : index + 1 ≤ mark)
    {token : Token} (hToken : tokens[index + 1]? = some token) :
    (token.kind = .eof ∨
        (inside earlier tokens recovered (index + 1)).before.head?.map Token.kind =
          some .rightBrace ∨
        startsStatement token.kind = true) ↔
      Resumable tokens mark (index + 1) := by
  have hLength := lt_length_of_firstMark hMark
  obtain ⟨last, hLast, -, hBefore⟩ :=
    @exists_inside tokens index earlier recovered (by omega)
  rw [kind_eof_iff hMark hIndex hToken, hBefore, startsStatement_iff, Resumable,
    Nat.add_sub_cancel, hLast, hToken]
  simp

/-- At a place where parsing can go on, nothing more is read. -/
theorem resume_here (hMark : firstMark? tokens = some mark) (hIndex : index + 1 ≤ mark)
    (hHere : Resumable tokens mark (index + 1)) :
    resume (inside earlier tokens recovered (index + 1)).before
        (inside earlier tokens recovered (index + 1)).rest =
      some ((inside earlier tokens recovered (index + 1)).before,
        (inside earlier tokens recovered (index + 1)).rest) := by
  have hLength := lt_length_of_firstMark hMark
  obtain ⟨token, hToken, hInside, -⟩ :=
    @exists_inside tokens (index + 1) earlier recovered (by omega)
  have hStop := (stops_iff earlier recovered hMark hIndex hToken).mpr hHere
  rw [hInside] at hStop ⊢
  exact if_pos hStop

/-- At any other place, one more token is read. -/
theorem resume_on (hMark : firstMark? tokens = some mark) (hIndex : index + 1 ≤ mark)
    (hHere : ¬Resumable tokens mark (index + 1)) :
    resume (inside earlier tokens recovered (index + 1)).before
        (inside earlier tokens recovered (index + 1)).rest =
      resume (inside earlier tokens recovered (index + 2)).before
        (inside earlier tokens recovered (index + 2)).rest := by
  have hLength := lt_length_of_firstMark hMark
  obtain ⟨token, hToken, hInside, hNext⟩ :=
    @exists_inside tokens (index + 1) earlier recovered (by omega)
  have hStop := mt (stops_iff earlier recovered hMark hIndex hToken).mp hHere
  rw [hInside] at hStop
  rw [hInside, hNext]
  exact if_neg hStop

/-- Reading on from a position behind the first stops at the least one where parsing can go on. -/
theorem exists_resume {index : Nat} (hMark : firstMark? tokens = some mark)
    (hIndex : index + 1 ≤ mark) :
    ∃ stop ≤ mark, IsLeast {position | index < position ∧ Resumable tokens mark position} stop ∧
      resume (inside earlier tokens recovered (index + 1)).before
          (inside earlier tokens recovered (index + 1)).rest =
        some ((inside earlier tokens recovered stop).before,
          (inside earlier tokens recovered stop).rest) := by
  by_cases hHere : Resumable tokens mark (index + 1)
  · exact ⟨index + 1, hIndex, ⟨⟨Nat.lt_succ_self _, hHere⟩, fun _ h => h.1⟩,
      resume_here earlier recovered hMark hIndex hHere⟩
  · -- The end mark is further on, since parsing could go on there.
    have hNext : index + 2 ≤ mark := Nat.lt_of_le_of_ne hIndex fun hEnd => hHere (.inl hEnd)
    obtain ⟨stop, hStop, ⟨hMem, hLeast⟩, hResume⟩ := exists_resume hMark hNext
    refine ⟨stop, hStop, ⟨⟨Nat.lt_of_succ_lt hMem.1, hMem.2⟩, ?_⟩, ?_⟩
    · intro position hPosition
      refine hLeast ⟨Nat.lt_of_le_of_ne hPosition.1 ?_, hPosition.2⟩
      rintro rfl
      exact hHere hPosition.2
    · rw [resume_on earlier recovered hMark hIndex hHere, hResume]
termination_by mark - index

/-- Recovery before the end mark stops at the least later position where parsing can go on. -/
theorem exists_synchronize (hMark : firstMark? tokens = some mark) (hStart : start < mark) :
    ∃ stop ≤ mark, IsLeast {position | start < position ∧ Resumable tokens mark position} stop ∧
      synchronize (inside earlier tokens recovered start) =
        .ok () (inside earlier tokens recovered stop) := by
  have hLength := lt_length_of_firstMark hMark
  obtain ⟨stop, hStop, hLeast, hResume⟩ := exists_resume earlier recovered hMark hStart
  refine ⟨stop, hStop, hLeast, ?_⟩
  obtain ⟨token, hToken, hInside, hNext⟩ :=
    @exists_inside tokens start earlier recovered (by omega)
  have hKind : token.kind ≠ .eof := fun hEnd =>
    absurd ((kind_eof_iff hMark (Nat.le_of_lt hStart) hToken).mp hEnd) (Nat.ne_of_lt hStart)
  have hAdvance : advance (inside earlier tokens recovered start) =
      .ok token (inside earlier tokens recovered (start + 1)) := by
    rw [hInside, hNext]
    exact advance_of_ne _ _ _ hKind
  refine (bind_ok hAdvance).trans ?_
  rw [hResume]
  rfl

/-- Recovery at the end mark stays there, if there is a token to look back at. -/
theorem synchronize_mark (hMark : firstMark? tokens = some mark)
    (hBefore : (inside earlier tokens recovered mark).before ≠ []) :
    synchronize (inside earlier tokens recovered mark) =
      .ok () (inside earlier tokens recovered mark) := by
  have hLength := lt_length_of_firstMark hMark
  obtain ⟨token, hToken, hInside, -⟩ := @exists_inside tokens mark earlier recovered hLength
  have hKind : token.kind = .eof := (kind_eof_iff hMark (Nat.le_refl _) hToken).mpr rfl
  have hResume : resume (inside earlier tokens recovered mark).before
      (inside earlier tokens recovered mark).rest =
      some ((inside earlier tokens recovered mark).before,
        (inside earlier tokens recovered mark).rest) := by
    rw [hInside]
    exact if_pos (.inl hKind)
  obtain ⟨last, before, hLast⟩ := List.exists_cons_of_ne_nil hBefore
  have hAdvance : advance (inside earlier tokens recovered mark) =
      .ok last (inside earlier tokens recovered mark) := by
    rw [hInside] at hLast ⊢
    dsimp only at hLast
    rw [hLast]
    exact if_pos hKind
  refine (bind_ok hAdvance).trans ?_
  rw [hResume]

end Parse

/-- Recovery from a position up to the first end mark of a list of tokens comes to a result. Before
the end mark it stops at the least later position where parsing can go on, and at the end mark it
stays. -/
theorem synchronize_stops_first {tokens : List Token} {mark start : Nat}
    (hMark : firstMark? tokens = some mark) (hStart : start ≤ mark) :
    ∃ (cursor after : Cursor) (stop : Nat), Cursor.seek tokens start = some cursor ∧
      Parse.synchronize cursor = .ok () after ∧ Cursor.seek tokens stop = some after ∧
      after.position tokens = stop ∧
      (start < mark →
        IsLeast {position | start < position ∧ Resumable tokens mark position} stop) ∧
      (start = mark → stop = mark) := by
  have hLength := lt_length_of_firstMark hMark
  rcases Nat.lt_or_eq_of_le hStart with hLt | rfl
  · obtain ⟨stop, hStop, hLeast, hRun⟩ :=
      Parse.exists_synchronize tokens.reverse [] hMark hLt
    exact ⟨_, _, stop, Cursor.seek_eq (by omega), hRun, Cursor.seek_eq (by omega),
      Cursor.position_inside (by omega) [], fun _ => hLeast, fun hEq => by omega⟩
  · have hRun := Parse.synchronize_mark tokens.reverse [] hMark (by
      have hNonempty := List.ne_nil_of_length_pos (Nat.zero_lt_of_lt hLength)
      simp [Cursor.inside, hNonempty])
    exact ⟨_, _, start, Cursor.seek_eq (by omega), hRun, Cursor.seek_eq (by omega),
      Cursor.position_inside (by omega) [], fun hLt => absurd hLt (Nat.lt_irrefl _), fun _ => rfl⟩

/-- A name, two closing braces, a word, the end mark, and tokens behind it. -/
def bracedTokens : List Token :=
  [⟨.identifier, "a", .nothing, 1, 1⟩, ⟨.rightBrace, "\x7d", .nothing, 1, 3⟩,
    ⟨.rightBrace, "\x7d", .nothing, 1, 4⟩, ⟨.varWord, "var", .nothing, 1, 6⟩,
    ⟨.eof, "", .nothing, 1, 9⟩, ⟨.classWord, "class", .nothing, 2, 1⟩]

/-- Parsing goes on behind the first of the two braces. -/
theorem synchronize_stops_first_braced :
    firstMark? bracedTokens = some 4 ∧ 0 ≤ 4 ∧
      ∃ cursor after, Cursor.seek bracedTokens (0 : Nat) = some cursor ∧
        Parse.synchronize cursor = .ok () after ∧ after.position bracedTokens = 2 := by
  have hMark : firstMark? bracedTokens = some 4 := by decide
  refine ⟨hMark, Nat.zero_le 4, ?_⟩
  obtain ⟨cursor, after, stop, hSeek, hRun, -, hPosition, hLeast, -⟩ :=
    synchronize_stops_first hMark (Nat.zero_le 4)
  have hTwo : IsLeast {position | 0 < position ∧ Resumable bracedTokens 4 position} 2 := by
    refine ⟨⟨by decide, .inr (.inl rfl)⟩, ?_⟩
    rintro position ⟨hPositive, hResumable⟩
    by_contra hLess
    obtain rfl : position = 1 := by omega
    revert hResumable
    simp [Resumable, bracedTokens, resumingWords]
  rw [(hLeast (by decide)).unique hTwo] at hPosition
  exact ⟨cursor, after, hSeek, hRun, hPosition⟩

end Mus
