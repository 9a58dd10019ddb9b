import Mus.Proofs.Syntax.Rules

/-! Two things are of no account to the parsers: the bound on the depth of
parsing, which only makes them total, and what lies behind the end mark. A
parser that has come to an answer, be it a result or a fault, comes to the same
answer under every larger bound and with any other tokens behind the mark. -/
namespace Mus

/-- A change of a list of tokens that concerns only what lies behind its first
end mark. -/
structure BehindMark (change : List Token → List Token) : Prop where
  nil : change [] = []
  cons : ∀ {token rest}, token.kind ≠ .eof → change (token :: rest) = token :: change rest
  mark : ∀ {token rest}, token.kind = .eof → ∃ behind, change (token :: rest) = token :: behind

def upToMark : List Token → List Token
  | [] => []
  | token :: rest => if token.kind = .eof then [token] else token :: upToMark rest

theorem behindMark_id : BehindMark id := ⟨rfl, fun _ => rfl, fun _ => ⟨_, rfl⟩⟩

/-- Cutting off what lies behind the end mark is such a change. -/
theorem behindMark_upToMark : BehindMark upToMark where
  nil := rfl
  cons h := if_neg h
  mark h := ⟨[], if_pos h⟩

/-- The next token stays, and so does what follows unless it is the end mark. -/
theorem BehindMark.exists_cons {change : List Token → List Token} (h : BehindMark change)
    (token : Token) (rest : List Token) :
    ∃ behind, change (token :: rest) = token :: behind ∧
      (token.kind ≠ .eof → behind = change rest) := by
  by_cases hEnd : token.kind = .eof
  · obtain ⟨behind, hBehind⟩ : ∃ behind, change (token :: rest) = token :: behind := h.mark hEnd
    exact ⟨behind, hBehind, fun hNot => absurd hEnd hNot⟩
  · exact ⟨change rest, h.cons hEnd, fun _ => rfl⟩

def Cursor.changed (change : List Token → List Token) (cursor : Cursor) : Cursor :=
  { cursor with rest := change cursor.rest }

namespace Parse

variable {α β : Type}

/-- The answer of a parser that has not run against its bound. -/
def Settled (answer : EStateM.Result ParseFault Cursor α) : Prop :=
  ∀ cursor, answer ≠ .error .outOfFuel cursor

def answerChanged (change : List Token → List Token) :
    EStateM.Result ParseFault Cursor α → EStateM.Result ParseFault Cursor α
  | .ok value cursor => .ok value (cursor.changed change)
  | .error fault cursor => .error fault (cursor.changed change)

/-- The second parser gives a settled answer of the first, with the change made to the
tokens before the cursor. -/
def Extends (change : List Token → List Token) (parser more : Parse α) (cursor : Cursor) : Prop :=
  Settled (parser cursor) → more (cursor.changed change) = answerChanged change (parser cursor)

/-- Without a change of the tokens the answers are equal. -/
theorem Extends.eq_of_settled {parser more : Parse α} {cursor : Cursor}
    (h : Extends id parser more cursor) (hSettled : Settled (parser cursor)) :
    more cursor = parser cursor := by
  have hSame := h hSettled
  cases hRun : parser cursor <;> rw [hRun] at hSame <;> exact hSame

section

variable {change : List Token → List Token} {cursor : Cursor}

theorem extends_pure (value : α) : Extends change (pure value : Parse α) (pure value) cursor :=
  fun _ => rfl

/-- A fault is passed on, so it is none of the bound if the whole answer is settled. -/
theorem extends_bind {parser more : Parse α} {next nextMore : α → Parse β}
    (hParser : Extends change parser more cursor)
    (hNext : ∀ value after, parser cursor = .ok value after →
      Extends change (next value) (nextMore value) after) :
    Extends change (parser >>= next) (more >>= nextMore) cursor := by
  intro hSettled
  unfold Extends at hParser
  cases hRun : parser cursor with
  | ok value after =>
      rw [hRun] at hParser
      rw [bind_ok hRun] at hSettled ⊢
      rw [bind_ok (hParser fun _ h => nomatch h)]
      exact hNext value after hRun hSettled
  | error fault after =>
      rw [hRun] at hParser
      rw [bind_error hRun] at hSettled ⊢
      have hFault : Settled (.error fault after : EStateM.Result ParseFault Cursor α) := by
        intro other hOther
        cases hOther
        exact hSettled after rfl
      rw [bind_error (hParser hFault)]
      rfl

theorem extends_previous : Extends change previous previous cursor := by
  intro _
  obtain ⟨before, rest, recovered⟩ := cursor
  cases before <;> rfl

/-- The description of an index does not depend on the tokens. -/
theorem extends_indexName (index : Expr) :
    Extends change (indexName index) (indexName index) cursor := by
  intro _
  unfold indexName
  cases index.describe .none <;> rfl

end

/-! ## The steps of the parsers -/

section

variable {change : List Token → List Token} (hChange : BehindMark change) (cursor : Cursor)

include hChange

theorem extends_peek : Extends change peek peek cursor := by
  intro _
  obtain ⟨before, rest, recovered⟩ := cursor
  cases rest with
  | nil => simp [peek, answerChanged, Cursor.changed, hChange.nil]
  | cons token rest =>
      obtain ⟨behind, hBehind, -⟩ := hChange.exists_cons token rest
      simp [peek, answerChanged, Cursor.changed, hBehind]

theorem extends_atEnd : Extends change atEnd atEnd cursor :=
  extends_bind (extends_peek hChange cursor) fun _ _ _ => extends_pure _

theorem extends_check (kind : TokenKind) : Extends change (check kind) (check kind) cursor :=
  extends_bind (extends_peek hChange cursor) fun _ _ _ => extends_pure _

/-- Reading on moves the next token to those before the cursor, unless it is the end mark. -/
theorem extends_advance : Extends change advance advance cursor := by
  intro _
  obtain ⟨before, rest, recovered⟩ := cursor
  cases rest with
  | nil => simp [advance, answerChanged, Cursor.changed, hChange.nil]
  | cons token rest =>
      obtain ⟨behind, hBehind, hTail⟩ := hChange.exists_cons token rest
      by_cases hEnd : token.kind = .eof
      · cases before <;>
          simp [advance, previous, answerChanged, Cursor.changed, hBehind, hEnd]
      · simp [advance, answerChanged, Cursor.changed, hBehind, hEnd, hTail hEnd]

/-- Whether a token is accepted depends on this token alone. -/
theorem extends_accept (kinds : List TokenKind) :
    Extends change (accept kinds) (accept kinds) cursor := by
  intro _
  obtain ⟨before, rest, recovered⟩ := cursor
  cases rest with
  | nil => simp [accept, answerChanged, Cursor.changed, hChange.nil]
  | cons token rest =>
      obtain ⟨behind, hBehind, hTail⟩ := hChange.exists_cons token rest
      by_cases hKind : token.kind ≠ .eof ∧ token.kind ∈ kinds
      · simp [accept, answerChanged, Cursor.changed, hBehind, hKind, hTail hKind.1]
      · simp [accept, answerChanged, Cursor.changed, hBehind, hKind]

theorem extends_consume (kind : TokenKind) (expectation : Expectation) :
    Extends change (consume kind expectation) (consume kind expectation) cursor := by
  intro _
  obtain ⟨before, rest, recovered⟩ := cursor
  cases rest with
  | nil => simp [consume, answerChanged, Cursor.changed, hChange.nil]
  | cons token rest =>
      obtain ⟨behind, hBehind, hTail⟩ := hChange.exists_cons token rest
      by_cases hKind : token.kind ≠ .eof ∧ token.kind = kind
      · obtain ⟨hEnd, rfl⟩ := hKind
        simp [consume, answerChanged, Cursor.changed, hBehind, hEnd, hTail hEnd]
      · simp [consume, answerChanged, Cursor.changed, hBehind, hKind]

/-- Where parsing goes on after an error is found before the end mark. -/
theorem resume_change (before rest : List Token) :
    resume before (change rest) = (resume before rest).map (Prod.map id change) ∧
      (resume before rest = none → change rest = rest) := by
  induction rest generalizing before with
  | nil => simp [resume, hChange.nil]
  | cons token rest ih =>
      obtain ⟨behind, hBehind, hTail⟩ := hChange.exists_cons token rest
      obtain ⟨hResume, hNone⟩ := ih (token :: before)
      rw [hBehind]
      unfold resume
      split
      · simp [hBehind]
      · next hStop =>
        have hEnd : token.kind ≠ .eof := fun h => hStop (Or.inl h)
        rw [hTail hEnd]
        exact ⟨hResume, fun h => by rw [hNone h]⟩

/-- Where parsing can go on is decided in front of the end mark. -/
theorem extends_synchronize : Extends change synchronize synchronize cursor := by
  refine extends_bind (extends_advance hChange cursor) fun _ after _ _ => ?_
  obtain ⟨before, rest, recovered⟩ := after
  obtain ⟨hResume, hNone⟩ := resume_change hChange before rest
  cases hFound : resume before rest with
  | none => simp [Cursor.changed, answerChanged, hFound, hNone hFound, hChange.nil]
  | some found => simp [Cursor.changed, answerChanged, hResume, hFound]

variable {cursor}

/-- A recovery changes nothing behind the end mark either. -/
theorem extends_recovering {parser more : Parse Stmt}
    (hParser : Extends change parser more cursor) :
    Extends change (recovering parser) (recovering more) cursor := by
  intro hSettled
  have hInner : Settled (parser cursor) := by
    intro after hRun
    apply hSettled after
    simp only [recovering, hRun]
  unfold recovering
  rw [hParser hInner]
  cases hRun : parser cursor with
  | ok stmt after => rfl
  | error fault after =>
      cases fault with
      | rejected error =>
          have hSync : Settled (synchronize after) := by
            intro other hOther
            apply hSettled other
            simp only [recovering, hRun, hOther]
          simp only [answerChanged, extends_synchronize hChange after hSync]
          cases synchronize after <;> rfl
      | pastEnd => rfl
      | indexText fault => rfl
      | outOfFuel => rfl

/-- What comes behind a token that is consumed goes on from a cursor behind it. -/
theorem extends_consume_bind {kind : TokenKind} {expectation : Expectation}
    {next nextMore : Token → Parse α}
    (hNext : ∀ (word : Grammar.Terminal [kind]) before rest recovered,
      Extends change (next word.token) (nextMore word.token)
        ⟨word.token :: before, rest, recovered⟩) :
    Extends change (consume kind expectation >>= next) (consume kind expectation >>= nextMore)
      cursor := by
  refine extends_bind (extends_consume hChange cursor kind expectation) fun token after hRun => ?_
  obtain ⟨-, hKind, before, rest, recovered, -, rfl⟩ := consume_ok hRun
  exact hNext ⟨token, List.mem_singleton.mpr hKind⟩ before rest recovered

theorem extends_check_bind {kind : TokenKind} {next nextMore : Bool → Parse α}
    (hNext : ∀ answer, Extends change (next answer) (nextMore answer) cursor) :
    Extends change (check kind >>= next) (check kind >>= nextMore) cursor := by
  refine extends_bind (extends_check hChange cursor kind) fun answer after hRun => ?_
  cases check_ok hRun
  exact hNext answer

/-- Reading on unless the end mark is next, or something else says so. -/
theorem extends_unlessEnded (stop : Bool) {yes no yesMore noMore : Parse α}
    (hYes : Extends change yes yesMore cursor)
    (hNo : ¬cursor.AtMark → Extends change no noMore cursor) :
    Extends change (do if stop || (← atEnd) then yes else no)
      (do if stop || (← atEnd) then yesMore else noMore) cursor := by
  refine extends_bind (extends_atEnd hChange cursor) fun ended after hRun => ?_
  obtain ⟨rfl, hEnded⟩ := atEnd_ok hRun
  cases hStop : stop || ended with
  | true => exact hYes
  | false =>
      refine hNo fun hMark => ?_
      rw [hEnded hMark, Bool.or_true] at hStop
      cases hStop

/-- With a larger bound, and whatever lies behind the end mark, the settled answers of all parsers
stay the same. -/
theorem rules_extends : Rules fun _ parser more cursor => Extends change parser more cursor where
  pure _ := extends_pure _
  exhausted _ := fun hSettled => absurd rfl (hSettled _)
  reject _ _ _ := fun _ => rfl
  rejectNext _ cursor := extends_bind (extends_peek hChange cursor) fun _ _ _ _ => rfl
  weaken h _ _ _ _ _ := h
  bind hParser hNext := extends_bind hParser fun value after _ => hNext value false [] after
  map hParser _ := extends_bind hParser fun _ _ _ => extends_pure _
  closing hParser _ := extends_bind hParser fun _ _ _ =>
    extends_consume_bind hChange fun _ _ _ _ => extends_pure _
  consume hNext := extends_consume_bind hChange hNext
  accept _ _ _ hYes hNo := by
    refine extends_bind (extends_accept hChange _ _) fun answer after hRun => ?_
    rcases accept_ok hRun with ⟨rfl, rfl⟩ | ⟨token, before, rest, recovered, rfl, -, hKind, -, rfl⟩
    · exact hNo
    · exact hYes ⟨token, hKind⟩ before rest recovered
  previous hNext := extends_bind extends_previous fun _ _ hRun => by
    cases hRun
    exact hNext
  check _ hNext := extends_check_bind hChange hNext
  unlessClosed _ hNo := extends_check_bind hChange fun closed =>
    extends_unlessEnded hChange closed (extends_pure _) hNo
  unlessEnded _ hNo := extends_unlessEnded hChange false (extends_pure _) hNo
  index hIndex hNext := by
    refine extends_bind hIndex fun index after _ => ?_
    refine extends_consume_bind hChange fun word before rest recovered => ?_
    refine extends_bind (extends_indexName index) fun name place hRun => ?_
    obtain ⟨rfl, -⟩ := indexName_ok hRun
    exact hNext index [] word name before rest recovered
  recovering _ hPlain := by
    unfold declaration
    exact extends_recovering hChange hPlain

end

/-! ## All parsers -/

section

variable {change : List Token → List Token} (hChange : BehindMark change) {fuel more : Nat}
  (hLe : fuel ≤ more)

include hChange hLe

/-- The bound and what is behind the end mark make no difference to a declaration. -/
theorem extends_declaration {cursor : Cursor} (hOff : ¬cursor.AtMark) :
    Extends change (declaration fuel) (declaration more) cursor :=
  (rules_extends hChange).declaration hLe hOff

/-- A program that is parsed within a bound is parsed in the same way within
every larger one, whatever lies behind the end mark. -/
theorem extends_program (cursor : Cursor) :
    Extends change (program fuel) (program more) cursor :=
  (rules_extends hChange).program hLe cursor

end

end Parse

end Mus
