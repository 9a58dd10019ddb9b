import Mus.Proofs.Syntax.Rules

/-! What the parsers come to. A parser reads on token by token and keeps what it has
read, apart from the stretches that are given up after a syntax error. Its result is
derived by the grammar from the tokens that it has kept, with a placeholder for each
stretch. Where it comes to no result, the reason is one of four: a token that does not
fit, an index without a description, a list without an end mark, or a bound that is too
small. -/
namespace Mus

/-! ## Reading on -/

namespace Cursor

/-- The second cursor comes after the first one has read these tokens, none of them an
end mark. -/
structure Passes (cursor : Cursor) (read : List Token) (after : Cursor) : Prop where
  rest : cursor.rest = read ++ after.rest
  before : after.before = read.reverse ++ cursor.before
  unmarked : ∀ token ∈ read, token.kind ≠ .eof

def Ended (cursor : Cursor) : Prop :=
  ∃ token ∈ cursor.rest, token.kind = .eof

def ahead (cursor : Cursor) : List Token :=
  cursor.rest.takeWhile (·.kind != .eof)

/-- One of the tokens in front of the next end mark has a literal without a
description. -/
def Undescribed (cursor : Cursor) : Prop :=
  ∃ token ∈ cursor.ahead, ¬token.Described

namespace Passes

variable {cursor middle after : Cursor} {read more : List Token}

theorem refl (cursor : Cursor) : cursor.Passes [] cursor :=
  ⟨rfl, rfl, fun _ h => absurd h List.not_mem_nil⟩

/-- Tokens that are read one after another are read together. -/
theorem trans (h₁ : cursor.Passes read middle) (h₂ : middle.Passes more after) :
    cursor.Passes (read ++ more) after where
  rest := by rw [h₁.rest, h₂.rest, List.append_assoc]
  before := by rw [h₂.before, h₁.before, List.reverse_append, List.append_assoc]
  unmarked := List.forall_mem_append.mpr ⟨h₁.unmarked, h₂.unmarked⟩

/-- Reading one token that is no end mark. -/
theorem step {token : Token} (hEnd : token.kind ≠ .eof) (before rest : List Token)
    (recovered recovered' : List SyntaxError) :
    Passes ⟨before, token :: rest, recovered⟩ [token] ⟨token :: before, rest, recovered'⟩ :=
  ⟨rfl, rfl, List.forall_mem_singleton.mpr hEnd⟩

/-- What is read is no longer ahead. -/
theorem length (h : cursor.Passes read after) :
    cursor.rest.length = read.length + after.rest.length := by
  rw [h.rest, List.length_append]

/-- One token read. -/
theorem length_lt {token : Token} (h : cursor.Passes [token] after) :
    after.rest.length < cursor.rest.length := by
  rw [h.length, List.length_singleton]
  omega

/-- What is ahead of a cursor is what is read and what is ahead then. -/
theorem ahead (h : cursor.Passes read after) : cursor.ahead = read ++ after.ahead := by
  unfold Cursor.ahead
  rw [h.rest]
  exact List.takeWhile_append_of_pos fun token hToken => bne_iff_ne.mpr (h.unmarked token hToken)

/-- The end mark is still ahead after reading on, since it is not read. -/
theorem ended (h : cursor.Passes read after) (hEnded : cursor.Ended) : after.Ended := by
  obtain ⟨mark, hMark, hKind⟩ := hEnded
  rw [h.rest] at hMark
  have hAfter := (List.mem_append.mp hMark).resolve_left fun hRead => h.unmarked mark hRead hKind
  exact ⟨mark, hAfter, hKind⟩

theorem undescribed (h : cursor.Passes read after) (hAfter : after.Undescribed) :
    cursor.Undescribed := by
  obtain ⟨token, hToken, hNot⟩ := hAfter
  refine ⟨token, ?_, hNot⟩
  rw [h.ahead]
  exact List.mem_append_right _ hToken

end Passes

end Cursor

namespace Parse

open Grammar

/-! ## Recovery -/

/-- Parsing goes on at the end mark at the latest. -/
theorem resume_cases (before rest : List Token) :
    (∃ read rest', resume before rest = some (read.reverse ++ before, rest') ∧
      rest = read ++ rest' ∧ ∀ token ∈ read, token.kind ≠ .eof) ∨
    (resume before rest = none ∧ ∀ token ∈ rest, token.kind ≠ .eof) := by
  induction rest generalizing before with
  | nil => exact Or.inr ⟨rfl, fun _ h => absurd h List.not_mem_nil⟩
  | cons token rest ih =>
      unfold resume
      by_cases hStop : token.kind = .eof ∨ (before.head?.map Token.kind) = some .rightBrace ∨
          startsStatement token.kind
      · rw [if_pos hStop]
        exact Or.inl ⟨[], token :: rest, rfl, rfl, fun _ h => absurd h List.not_mem_nil⟩
      · rw [if_neg hStop]
        have hKind : token.kind ≠ .eof := fun h => hStop (Or.inl h)
        rcases ih (token :: before) with ⟨read, rest', hResume, rfl, hRead⟩ | ⟨hResume, hRest⟩
        · refine Or.inl ⟨token :: read, rest', ?_, rfl, List.forall_mem_cons.mpr ⟨hKind, hRead⟩⟩
          rw [hResume, List.reverse_cons, List.append_assoc]
          rfl
        · exact Or.inr ⟨hResume, List.forall_mem_cons.mpr ⟨hKind, hRest⟩⟩

/-- Recovery leaves one token behind, unless it is at the end mark. It fails only where
no end mark follows, or where nothing stands before the mark. -/
theorem synchronize_cases (cursor : Cursor) :
    (∃ read after, synchronize cursor = .ok () after ∧ cursor.Passes read after ∧
      after.recovered = cursor.recovered ∧ (read = [] → cursor.AtMark)) ∨
    (∃ after, synchronize cursor = .error .pastEnd after ∧ after.recovered = cursor.recovered ∧
      (cursor.Ended → cursor.AtMark ∧ cursor.before = [])) := by
  obtain ⟨before, rest, recovered⟩ := cursor
  cases rest with
  | nil => exact Or.inr ⟨_, rfl, rfl, fun ⟨_, hMark, _⟩ => absurd hMark List.not_mem_nil⟩
  | cons token rest =>
      by_cases hEnd : token.kind = .eof
      · have hMark : Cursor.AtMark ⟨before, token :: rest, recovered⟩ := ⟨token, rest, rfl, hEnd⟩
        have hAdvance : advance ⟨before, token :: rest, recovered⟩ =
            previous ⟨before, token :: rest, recovered⟩ := if_pos hEnd
        cases before with
        | nil => exact Or.inr ⟨_, bind_error hAdvance, rfl, fun _ => ⟨hMark, rfl⟩⟩
        | cons last before =>
            have hResume : resume (last :: before) (token :: rest) =
                some (last :: before, token :: rest) := if_pos (Or.inl hEnd)
            refine Or.inl ⟨[], _, (bind_ok hAdvance).trans ?_, .refl _, rfl, fun _ => hMark⟩
            simp only [hResume]
      · have hAdvance := advance_of_ne before rest recovered hEnd
        rcases resume_cases (token :: before) rest with
          ⟨read, rest', hResume, rfl, hRead⟩ | ⟨hResume, hRest⟩
        · refine Or.inl ⟨token :: read, ⟨read.reverse ++ token :: before, rest', recovered⟩,
            (bind_ok hAdvance).trans ?_, ?_, rfl, fun h => by cases h⟩
          · simp only [hResume]
          · exact (Cursor.Passes.step hEnd before _ recovered recovered).trans ⟨rfl, rfl, hRead⟩
        · refine Or.inr ⟨⟨rest.reverse ++ token :: before, [], recovered⟩,
            (bind_ok hAdvance).trans ?_, rfl, ?_⟩
          · simp only [hResume]
          · rintro ⟨mark, hMark, hKind⟩
            rcases List.mem_cons.mp hMark with rfl | hMark
            · exact absurd hKind hEnd
            · exact absurd hKind (hRest mark hMark)

/-- Without a rejected token there is nothing to recover from. -/
theorem recovering_of_not_rejected {parser : Parse Stmt} {cursor : Cursor}
    {answer : EStateM.Result ParseFault Cursor Stmt} (hRun : parser cursor = answer)
    (h : ∀ error after, answer ≠ .error (.rejected error) after) :
    recovering parser cursor = answer := by
  unfold recovering
  rw [hRun]
  split
  · exact absurd rfl (h _ _)
  · rfl

/-- An error that is recovered from is noted. -/
theorem recovering_of_rejected {parser : Parse Stmt} {cursor after : Cursor} {error : SyntaxError}
    (hRun : parser cursor = .error (.rejected error) after) :
    (∃ read finish, recovering parser cursor = .ok (placeholder error) finish ∧
      after.Passes read finish ∧ finish.recovered = error :: after.recovered ∧
      (read = [] → after.AtMark)) ∨
    (∃ finish, recovering parser cursor = .error .pastEnd finish ∧
      finish.recovered = after.recovered ∧ (after.Ended → after.AtMark ∧ after.before = [])) := by
  rcases synchronize_cases after with
    ⟨read, finish, hSync, hPasses, hRecovered, hRead⟩ | ⟨finish, hSync, hRecovered, hEnded⟩
  · refine Or.inl ⟨read, { finish with recovered := error :: finish.recovered }, ?_,
      ⟨hPasses.rest, hPasses.before, hPasses.unmarked⟩, ?_, hRead⟩
    · simp only [recovering, hRun, hSync]
    · rw [← hRecovered]
  · refine Or.inr ⟨finish, ?_, hRecovered, hEnded⟩
    simp only [recovering, hRun, hSync]

/-! ## The way of a parser -/

/-- The declaration at the cursor is rejected, and parsing goes on behind a stretch
of tokens that is given up. -/
structure GivesUp (cursor : Cursor) (stretch : List Token) (after : Cursor) : Prop where
  rejected : ∃ fuel error failed, plainDeclaration fuel cursor = .error (.rejected error) failed ∧
    declaration (fuel + 1) cursor = .ok (placeholder error) after
  passes : cursor.Passes stretch after
  nonempty : stretch ≠ []
  noted : cursor.recovered.length < after.recovered.length

/-- How a parser comes from one place to another: some tokens are read one by one and
kept, and some stretches are given up on the way. -/
inductive Moves : Cursor → List Token → List (List Token) → Cursor → Prop where
  | stay (cursor : Cursor) : Moves cursor [] [] cursor
  | read {token : Token} {before rest kept : List Token} {recovered : List SyntaxError}
      {lost : List (List Token)} {after : Cursor} (unmarked : token.kind ≠ .eof)
      (further : Moves ⟨token :: before, rest, recovered⟩ kept lost after) :
      Moves ⟨before, token :: rest, recovered⟩ (token :: kept) lost after
  | giveUp {cursor middle after : Cursor} {stretch kept : List Token} {lost : List (List Token)}
      (given : GivesUp cursor stretch middle) (further : Moves middle kept lost after) :
      Moves cursor kept (stretch :: lost) after

namespace Moves

variable {cursor middle after : Cursor} {kept more : List Token} {lost further : List (List Token)}

/-- Moves one after another are one move, with the kept tokens and the stretches of both. -/
theorem trans (h₁ : Moves cursor kept lost middle) (h₂ : Moves middle more further after) :
    Moves cursor (kept ++ more) (lost ++ further) after := by
  induction h₁ with
  | stay => exact h₂
  | read unmarked _ ih => exact .read unmarked (ih h₂)
  | giveUp given _ ih => exact .giveUp given (ih h₂)

/-- What is kept is among what was read, and all of it if nothing was given up. -/
theorem passes (h : Moves cursor kept lost after) :
    ∃ read, cursor.Passes read after ∧ kept.Sublist read ∧ (lost = [] → read = kept) := by
  induction h with
  | stay => exact ⟨[], .refl _, List.Sublist.refl _, fun _ => rfl⟩
  | @read token _ _ _ _ _ _ unmarked _ ih =>
      obtain ⟨read, hPasses, hKept, hAll⟩ := ih
      exact ⟨token :: read, (Cursor.Passes.step unmarked _ _ _ _).trans hPasses,
        hKept.cons_cons token, fun h => congrArg (token :: ·) (hAll h)⟩
  | @giveUp _ _ _ stretch _ _ given _ ih =>
      obtain ⟨read, hPasses, hKept, -⟩ := ih
      exact ⟨stretch ++ read, given.passes.trans hPasses,
        hKept.trans (List.sublist_append_right _ _), fun h => by cases h⟩

/-- An error is noted for each stretch that is given up. -/
theorem noted (h : Moves cursor kept lost after) :
    cursor.recovered.length + lost.length ≤ after.recovered.length := by
  induction h with
  | stay => exact Nat.le_refl _
  | read _ _ ih => exact ih
  | giveUp given _ ih =>
      have := given.noted
      rw [List.length_cons]
      omega

/-- Without a stretch that is given up, no error is noted. -/
theorem quiet (h : Moves cursor kept lost after) (hLost : lost = []) :
    after.recovered = cursor.recovered := by
  induction h with
  | stay => rfl
  | read _ _ ih => exact ih hLost
  | giveUp => cases hLost

/-- The end mark is still ahead after a move, which neither keeps it nor gives it up. -/
theorem ended (h : Moves cursor kept lost after) (hEnded : cursor.Ended) : after.Ended := by
  obtain ⟨read, hPasses, -⟩ := h.passes
  exact hPasses.ended hEnded

theorem undescribed (h : Moves cursor kept lost after) (hAfter : after.Undescribed) :
    cursor.Undescribed := by
  obtain ⟨read, hPasses, -⟩ := h.passes
  exact hPasses.undescribed hAfter

/-- What is kept was ahead. -/
theorem mem_ahead (h : Moves cursor kept lost after) {token : Token} (hToken : token ∈ kept) :
    token ∈ cursor.ahead := by
  obtain ⟨read, hPasses, hKept, -⟩ := h.passes
  rw [hPasses.ahead]
  exact List.mem_append_left _ (hKept.subset hToken)

theorem mem_rest (h : Moves cursor kept lost after) {token : Token} (hToken : token ∈ kept) :
    token ∈ cursor.rest :=
  (List.takeWhile_sublist _).subset (h.mem_ahead hToken)

end Moves

/-! ## Answers -/

section

variable {α β : Type} {enough blamed : Prop} {least : Nat} {first : Bool → List Token → α → Prop}
  {yields : Bool → List Token → β → Prop} {cursor : Cursor}

/-- What the parser comes to from the cursor on. Its result is derived from the tokens
that are kept, and the reasons for having none are these: the bound is not enough, an
index is to blame, or no end mark follows. -/
def Derives (enough blamed : Prop) (least : Nat) (yields : Bool → List Token → α → Prop)
    (parser : Parse α) (cursor : Cursor) : Prop :=
  match parser cursor with
  | .ok value after => least + after.rest.length ≤ cursor.rest.length ∧
      ∃ kept lost, Moves cursor kept lost after ∧ yields (!lost.isEmpty) kept value
  | .error (.rejected _) after => ∃ kept lost, Moves cursor kept lost after
  | .error (.indexText fault) _ => fault = .tooManyDigits ∧ blamed
  | .error .pastEnd _ => ¬cursor.Ended
  | .error .outOfFuel _ => ¬enough

/-- A bound may be enough for more, a blame may be wider, and fewer tokens may be required. -/
theorem Derives.mono {enough' blamed' : Prop} {least' : Nat}
    {yields' : Bool → List Token → β → Prop} {parser : Parse β}
    (h : Derives enough blamed least yields parser cursor) (hEnough : enough' → enough)
    (hBlamed : blamed → blamed') (hLeast : least' ≤ least)
    (hYields : ∀ faulty tokens value, yields faulty tokens value → yields' faulty tokens value) :
    Derives enough' blamed' least' yields' parser cursor := by
  unfold Derives at h ⊢
  split at h
  · obtain ⟨hRead, kept, lost, hMoves, hValue⟩ := h
    exact ⟨by omega, kept, lost, hMoves, hYields _ _ _ hValue⟩
  · exact h
  · exact ⟨h.1, hBlamed h.2⟩
  · exact h
  · exact fun hHas => h (hEnough hHas)

/-- A result that needs no tokens. -/
theorem derives_pure {value : β} (h : yields false [] value) :
    Derives enough blamed 0 yields (pure value) cursor :=
  ⟨Nat.le_of_eq (Nat.zero_add _), [], [], .stay cursor, h⟩

/-- A rejected token is the fault of the source and excuses the parser. -/
theorem derives_reject (expectation : Expectation) (token : Token) :
    Derives enough blamed least yields (reject expectation token) cursor :=
  ⟨[], [], .stay cursor⟩

/-- What the first parser has derived is known to the second one. -/
theorem derives_bind {parser : Parse α} {next : α → Parse β}
    (hParser : Derives enough blamed least first parser cursor)
    (hNext : ∀ value read lost after, Moves cursor read lost after →
      least + after.rest.length ≤ cursor.rest.length → first (!lost.isEmpty) read value →
      Derives enough blamed 0
        (fun others tokens => yields (!lost.isEmpty || others) (read ++ tokens))
        (next value) after) :
    Derives enough blamed least yields (parser >>= next) cursor := by
  unfold Derives at hParser
  cases hRun : parser cursor with
  | error fault after =>
      rw [hRun] at hParser
      unfold Derives
      rw [bind_error hRun]
      cases fault <;> exact hParser
  | ok value middle =>
      rw [hRun] at hParser
      obtain ⟨hLeast, kept, lost, hMoves, hFirst⟩ := hParser
      have hMore := hNext value kept lost middle hMoves hLeast hFirst
      unfold Derives at hMore ⊢
      rw [bind_ok hRun]
      split at hMore
      · obtain ⟨hLength, more, further, hFurther, hYields⟩ := hMore
        refine ⟨by omega, kept ++ more, lost ++ further, hMoves.trans hFurther, ?_⟩
        cases lost <;> exact hYields
      · obtain ⟨more, further, hFurther⟩ := hMore
        exact ⟨kept ++ more, lost ++ further, hMoves.trans hFurther⟩
      · exact hMore
      · exact fun hEnded => hMore (hMoves.ended hEnded)
      · exact hMore

/-- A token is read before the parser goes on. -/
theorem derives_step {parser next : Parse β} {token : Token} {before rest : List Token}
    {recovered : List SyntaxError} (hEnd : token.kind ≠ .eof) (hLeast : least ≤ 1)
    (hRun : parser ⟨before, token :: rest, recovered⟩ = next ⟨token :: before, rest, recovered⟩)
    (hNext : Derives enough blamed 0 (fun faulty tokens => yields faulty (token :: tokens)) next
      ⟨token :: before, rest, recovered⟩) :
    Derives enough blamed least yields parser ⟨before, token :: rest, recovered⟩ := by
  unfold Derives at hNext ⊢
  rw [hRun]
  split at hNext
  · obtain ⟨hLength, kept, lost, hMoves, hYields⟩ := hNext
    refine ⟨?_, token :: kept, lost, .read hEnd hMoves, hYields⟩
    rw [List.length_cons]
    dsimp only at hLength
    omega
  · obtain ⟨kept, lost, hMoves⟩ := hNext
    exact ⟨token :: kept, lost, .read hEnd hMoves⟩
  · exact hNext
  · exact fun hEnded => hNext ((Cursor.Passes.step hEnd _ _ _ _).ended hEnded)
  · exact hNext

theorem not_ended_nil (before : List Token) (recovered : List SyntaxError) :
    ¬Cursor.Ended ⟨before, [], recovered⟩ :=
  fun ⟨_, hMark, _⟩ => absurd hMark List.not_mem_nil

/-- A token that is consumed is kept, and what comes next is derived from the tokens behind it. -/
theorem derives_consume {kind : TokenKind} {expectation : Expectation} {next : Token → Parse β}
    (hLeast : least ≤ 1)
    (hNext : ∀ (word : Terminal [kind]) before rest recovered,
      cursor.Passes [word.token] ⟨word.token :: before, rest, recovered⟩ →
      Derives enough blamed 0 (fun faulty tokens => yields faulty (word.token :: tokens))
        (next word.token) ⟨word.token :: before, rest, recovered⟩) :
    Derives enough blamed least yields (consume kind expectation >>= next) cursor := by
  obtain ⟨before, rest, recovered⟩ := cursor
  cases rest with
  | nil => exact not_ended_nil before recovered
  | cons token rest =>
      by_cases hKind : token.kind ≠ .eof ∧ token.kind = kind
      · have hRun := consume_of_kind before rest recovered expectation hKind.1 hKind.2
        exact derives_step hKind.1 hLeast (bind_ok hRun)
          (hNext ⟨token, List.mem_singleton.mpr hKind.2⟩ before rest recovered
            (.step hKind.1 before rest recovered recovered))
      · have hRun := consume_of_not before rest recovered expectation hKind
        unfold Derives
        rw [bind_error hRun]
        exact ⟨[], [], .stay _⟩

/-- A token that is accepted is kept, and the parser goes on by whether it was. -/
theorem derives_accept {kinds : List TokenKind} {next : Bool → Parse β} (hLeast : least ≤ 1)
    (hYes : ∀ (word : Terminal kinds) before rest recovered,
      cursor.Passes [word.token] ⟨word.token :: before, rest, recovered⟩ →
      Derives enough blamed 0 (fun faulty tokens => yields faulty (word.token :: tokens))
        (next true) ⟨word.token :: before, rest, recovered⟩)
    (hNo : Derives enough blamed least yields (next false) cursor) :
    Derives enough blamed least yields (accept kinds >>= next) cursor := by
  obtain ⟨before, rest, recovered⟩ := cursor
  cases rest with
  | nil => exact not_ended_nil before recovered
  | cons token rest =>
      by_cases hKind : token.kind ≠ .eof ∧ token.kind ∈ kinds
      · have hRun := accept_of_mem before rest recovered hKind.1 hKind.2
        exact derives_step hKind.1 hLeast (bind_ok hRun)
          (hYes ⟨token, hKind.2⟩ before rest recovered
            (.step hKind.1 before rest recovered recovered))
      · have hRun : accept kinds ⟨before, token :: rest, recovered⟩ =
            .ok false ⟨before, token :: rest, recovered⟩ := if_neg hKind
        unfold Derives
        rw [bind_ok hRun]
        exact hNo

/-- Looking at the next token reads nothing. -/
theorem derives_peek {next : Token → Parse β}
    (hNext : ∀ token rest, cursor.rest = token :: rest →
      Derives enough blamed least yields (next token) cursor) :
    Derives enough blamed least yields (peek >>= next) cursor := by
  obtain ⟨before, rest, recovered⟩ := cursor
  cases rest with
  | nil => exact not_ended_nil before recovered
  | cons token rest => exact hNext token rest rfl

/-- Looking at the next token keeps nothing. -/
theorem derives_check {kind : TokenKind} {next : Bool → Parse β}
    (hNext : ∀ answer, Derives enough blamed least yields (next answer) cursor) :
    Derives enough blamed least yields (check kind >>= next) cursor := by
  unfold check
  rw [bind_assoc]
  exact derives_peek fun _ _ _ => hNext _

/-- Reading on unless the end mark is next, or something else says so. -/
theorem derives_unlessEnded (stop : Bool) {yes no : Parse β}
    (hYes : Derives enough blamed least yields yes cursor)
    (hNo : ¬cursor.AtMark → Derives enough blamed least yields no cursor) :
    Derives enough blamed least yields (do if stop || (← atEnd) then yes else no) cursor := by
  unfold atEnd
  rw [bind_assoc]
  refine derives_peek fun token rest hRest => ?_
  change Derives enough blamed least yields (if stop || token.kind == .eof then yes else no) cursor
  split
  · exact hYes
  · next hStop =>
    refine hNo ?_
    rintro ⟨mark, others, hOthers, hMark⟩
    rw [hRest] at hOthers
    cases hOthers
    rw [hMark, beq_self_eq_true, Bool.or_true] at hStop
    exact hStop rfl

/-- The description of an index is missing only if that of a token is. -/
theorem derives_indexName {index : Expr} {read : List Token} {next : String → Parse β}
    (hIndex : Expression .assignment read index)
    (hBlamed : (∃ token ∈ read, ¬token.Described) → blamed)
    (hNext : ∀ name, index.describe .none = .ok name →
      Derives enough blamed least yields (next name) cursor) :
    Derives enough blamed least yields (indexName index >>= next) cursor := by
  unfold indexName
  cases hText : index.describe .none with
  | ok name => exact hNext name hText
  | error fault =>
      refine ⟨Expr.onlyDigits_describe index fault hText, hBlamed ?_⟩
      by_contra hNone
      obtain ⟨text, hDescribed⟩ := hIndex.described fun token hToken => by
        by_contra hNot
        exact hNone ⟨token, hToken, hNot⟩
      rw [hText] at hDescribed
      cases hDescribed

end

/-- A declaration that does not start at the end mark reads on. If it is rejected, what
recovery passes is given up. -/
theorem derives_declaration {enough : Prop} {fuel : Nat} {cursor : Cursor}
    (hOff : ¬cursor.AtMark)
    (hPlain : Derives enough cursor.Undescribed 1 Declaration (plainDeclaration fuel) cursor) :
    Derives enough cursor.Undescribed 1 Declaration (declaration (fuel + 1)) cursor := by
  have hSame : declaration (fuel + 1) cursor = recovering (plainDeclaration fuel) cursor := by
    unfold declaration
    rfl
  unfold Derives at hPlain ⊢
  cases hRun : plainDeclaration fuel cursor with
  | ok stmt after =>
      rw [hRun] at hPlain
      rw [hSame, recovering_of_not_rejected hRun fun _ _ h => by cases h]
      exact hPlain
  | error fault after =>
      rw [hRun] at hPlain
      cases fault with
      | rejected error =>
          obtain ⟨kept, lost, hMoves⟩ := hPlain
          obtain ⟨read, hRead, -⟩ := hMoves.passes
          -- Without a token read, the error would be at the end mark from the start on.
          have hStart : read = [] → ¬after.AtMark := by
            rintro rfl ⟨mark, rest, hRest, hMark⟩
            exact hOff ⟨mark, rest, hRead.rest.trans hRest, hMark⟩
          rcases recovering_of_rejected hRun with
            ⟨more, finish, hAnswer, hMore, hNoted, hMark⟩ | ⟨finish, hAnswer, -, hMark⟩
          · have hStretch : read ++ more ≠ [] := by
              intro hNil
              obtain ⟨hNone, hNoMore⟩ := List.append_eq_nil_iff.mp hNil
              exact hStart hNone (hMark hNoMore)
            have hGiven : GivesUp cursor (read ++ more) finish := by
              refine ⟨⟨fuel, error, after, hRun, hSame.trans hAnswer⟩, hRead.trans hMore,
                hStretch, ?_⟩
              have := hMoves.noted
              rw [hNoted, List.length_cons]
              omega
            have hLength := hGiven.passes.length
            have := List.length_pos_iff.mpr hStretch
            rw [hSame, hAnswer]
            exact ⟨by omega, [], [read ++ more], .giveUp hGiven (.stay finish), .placeholder error⟩
          · rw [hSame, hAnswer]
            intro hEnded
            obtain ⟨hAt, hBefore⟩ := hMark (hRead.ended hEnded)
            rw [hRead.before] at hBefore
            exact hStart (List.reverse_eq_nil_iff.mp (List.append_eq_nil_iff.mp hBefore).1) hAt
      | pastEnd | indexText | outOfFuel =>
          rw [hSame, recovering_of_not_rejected hRun fun _ _ h => by cases h]
          exact hPlain

/-- Every parser derives its result by the grammar, from the tokens that are kept. -/
theorem rules_derives : Rules fun spec parser _ cursor =>
    Derives spec.enough cursor.Undescribed spec.least spec.yields parser cursor where
  pure hValue := derives_pure hValue
  exhausted h := h
  reject expectation token _ := derives_reject expectation token
  rejectNext expectation _ := derives_peek fun token _ _ => derives_reject expectation token
  weaken h hEnough _ _ hLeast hYields := h.mono hEnough id hLeast hYields
  bind hParser hNext := derives_bind hParser fun value read lost after hMoves hLeast hFirst =>
    (hNext value _ read after).mono (fun h => ⟨h, hLeast⟩) hMoves.undescribed (Nat.le_refl _)
      fun _ _ _ h => h hFirst
  map hParser hWrap := derives_bind hParser fun value read lost after _ _ hFirst => by
    refine derives_pure ?_
    rw [Bool.or_false, List.append_nil]
    exact hWrap _ _ _ hFirst
  closing hParser hWrap := derives_bind hParser fun value read lost after _ _ hFirst =>
    derives_consume (Nat.zero_le _) fun word _ _ _ _ => derives_pure <| by
      rw [Bool.or_false]
      exact hWrap _ _ _ word hFirst
  consume hNext := derives_consume (Nat.le_refl _) fun word before rest recovered hPasses =>
    (hNext word before rest recovered).mono (fun h => ⟨h, hPasses.length_lt⟩)
      hPasses.undescribed (Nat.le_refl _) fun _ _ _ h => h
  accept _ hLeast _ hYes hNo := derives_accept hLeast (fun word before rest recovered hPasses =>
    (hYes word before rest recovered).mono (fun h => ⟨h, hPasses.length_lt⟩)
      hPasses.undescribed (Nat.le_refl _) fun _ _ _ h => h) hNo
  previous hNext := hNext
  check _ hNext := derives_check hNext
  unlessClosed hValue hNo := derives_check fun closed =>
    derives_unlessEnded closed (derives_pure hValue) hNo
  unlessEnded hValue hNo := derives_unlessEnded false (derives_pure hValue) hNo
  index hIndex hNext := by
    refine (derives_bind hIndex ?_).mono id id (Nat.zero_le _) fun _ _ _ h => h
    rintro index read lost after hMoves hLeast ⟨hClean, hInner⟩
    rw [hClean]
    refine derives_consume (Nat.zero_le _) fun word before rest recovered hPasses => ?_
    refine derives_indexName hInner ?_ fun name hName => ?_
    · rintro ⟨token, hToken, hNot⟩
      exact ⟨token, hMoves.mem_ahead hToken, hNot⟩
    · refine (hNext index read word name before rest recovered).mono (fun h => ⟨h, ?_⟩)
        (fun h => ?_) (Nat.le_refl _) fun _ _ _ h => h hInner hName
      · exact Nat.lt_of_lt_of_le hPasses.length_lt (by omega)
      · exact hMoves.undescribed (hPasses.undescribed h)
  recovering hOff hPlain := derives_declaration hOff hPlain

/-! ## All parsers -/

/-- A declaration is derived by the grammar with a bound of ten for each token that is left. -/
theorem declaration_derives {fuel : Nat} {cursor : Cursor} (hOff : ¬cursor.AtMark) :
    Derives (10 * cursor.rest.length + 7 ≤ fuel) cursor.Undescribed 1 Declaration
      (declaration fuel) cursor :=
  rules_derives.declaration (Nat.le_refl _) hOff

/-- A program is derived by the grammar with a bound of ten for each token that is left. -/
theorem program_derives (fuel : Nat) (cursor : Cursor) :
    Derives (10 * cursor.rest.length + 8 ≤ fuel) cursor.Undescribed 0 Declarations
      (program fuel) cursor :=
  rules_derives.program (Nat.le_refl _) cursor

end Parse

end Mus
